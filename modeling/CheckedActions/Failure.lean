import CheckedActions.Schema.Problem
import CheckedActions.Text.Coding
import CheckedActions.Value.Tag

/-!
Every way in which a call can fail, by cause. Rejections say that input did not validate; they
carry an error tree, which is a text for a single reason and a dictionary for a failing shape.
A failure of the program that uses the library is known by its kind and its arguments.
-/

namespace CheckedActions

inductive Failure where
  /-- Input was rejected for the given reasons. -/
  | rejected (errors : Value)
  /-- A value has another type than the expected one. -/
  | mismatch (actual expected : Value)
  /-- A required value is absent. -/
  | required
  /-- An action's description lacks a part. -/
  | malformed (message : Value)
  /-- A failure of the library that is none of the above. -/
  | general (message : Value)
  /-- A record's fields do not fit their declaration, and how that is worded. -/
  | unfit (problems : List Problem) (text : String)
  /-- A field of the null value was asked for. -/
  | nullField (key : Value)
  | noAttribute (owner name : String)
  | unknownTag (value : Value)
  | frozenField (field : String)
  | missingKey (key : Value)
  | notIterable (owner : String)
  /-- A value is used in a way its kind does not allow. -/
  | misused (message : String)
  | elementNotSequence (index : Nat)
  | elementLength (index length : Nat)
  | unhashable (owner : String)
  /-- A number has no double-precision counterpart; a fraction is told apart from an integer. -/
  | beyondDouble (isFraction : Bool)
  | outsideCalendar
  /-- An item that should be a text is not. -/
  | notText (index : Nat) (owner : String)
  | unorderedKeys (left right : String)
  | keyNotWritable (owner : String)
  /-- A report has something in it that cannot be written. -/
  | notSerializable (reason : String)
  | tooManyDigits (count : Nat)
  /-- A whole number is too long to be written. -/
  | tooLongToWrite
  | notJsonText (owner : String)
  /-- Bytes write no text. -/
  | undecodable (fault : CodingFault)
  | badParameter (reason : String)
  /-- An environment variable does not hold what its setting needs. -/
  | unreadableSetting (field : String)
  | badConfigFile (path : String)
  | nameTaken
  /-- A module that cannot be found, and why. -/
  | importFailed (reason : String)
  /-- A failure of the program around the library. -/
  | host (kind : String) (args : List Value)
  deriving Inhabited

namespace Failure

def validationFailedText : String := "The action could not be validated"
def requiredText : String := "Required"

def mismatchText (actual expected : Value) : String :=
  "Expected type to be \"" ++ expected.text ++ "\" but found \"" ++ actual.text ++ "\""

/-- The error tree of a rejection, none for any other failure. -/
def errors? : Failure → Option Value
  | rejected errors => some errors
  | mismatch actual expected => some (.str (mismatchText actual expected))
  | required => some (.str requiredText)
  | _ => none

def isRejection (f : Failure) : Bool := f.errors?.isSome

/-- Whether the errors are those of a shape. -/
def isComposite (errors : Value) : Bool :=
  match errors with
  | .dict _ => true
  | _ => false

/-- The summary of a rejection with the given errors. -/
def rejectionText : Value → String
  | .str s => s
  | _ => validationFailedText

/-- Which bytes write no text, and why. A single one is shown. -/
def codingText (f : CodingFault) : String :=
  let place := match f.bytes with
    | [b] => "byte 0x" ++ String.ofList (hexDigits 2 b.toNat) ++ " in position " ++ toString f.start
    | bs => "bytes in position " ++ toString f.start ++ "-" ++ toString (f.start + bs.length - 1)
  quoteText f.coding.name ++ " codec can't decode " ++ place ++ ": " ++ f.reason.message

/-- The text of a failure that is known by its arguments. -/
def argumentText (kind : String) : List Value → String
  | [] => ""
  | [v] => if kind = "KeyError" then v.quoted else v.text
  | vs => (Value.tuple vs).quoted

def digitLimitText : String :=
  "Exceeds the limit (4300 digits) for integer string conversion; " ++
    "use sys.set_int_max_str_digits() to increase the limit"

/-- What a failure says, every whole number written out however long it is. -/
def wording : Failure → String
  | rejected errors => rejectionText errors
  | mismatch actual expected => mismatchText actual expected
  | required => requiredText
  | malformed m => m.text
  | general m => m.text
  | unfit _ text => text
  | nullField key => "Cannot read property " ++ key.quoted ++ " of None"
  | noAttribute owner name => quoteText owner ++ " object has no attribute " ++ quoteText name
  | unknownTag v => v.quoted ++ " is not a valid TypeTag"
  | frozenField field => "cannot assign to field " ++ quoteText field
  | missingKey key => key.quoted
  | notIterable owner => quoteText owner ++ " object is not iterable"
  | misused m => m
  | elementNotSequence i =>
    "cannot convert dictionary update sequence element #" ++ toString i ++ " to a sequence"
  | elementLength i n =>
    "dictionary update sequence element #" ++ toString i ++ " has length " ++ toString n ++
      "; 2 is required"
  | unhashable owner => "unhashable type: " ++ quoteText owner
  | beyondDouble isFraction =>
    if isFraction then "integer division result too large for a float"
    else "int too large to convert to float"
  | outsideCalendar => "date value out of range"
  | notText i owner =>
    "sequence item " ++ toString i ++ ": expected str instance, " ++ owner ++ " found"
  | unorderedKeys a b =>
    "'<' not supported between instances of " ++ quoteText a ++ " and " ++ quoteText b
  | keyNotWritable owner => "keys must be str, int, float, bool or None, not " ++ owner
  | notSerializable reason => reason
  | tooManyDigits n =>
    "Exceeds the limit (4300 digits) for integer string conversion: value has " ++ toString n ++
      " digits; use sys.set_int_max_str_digits() to increase the limit"
  | tooLongToWrite => digitLimitText
  | undecodable fault => codingText fault
  | notJsonText owner => "the JSON object must be str, bytes or bytearray, not " ++ owner
  | badParameter reason => reason
  | unreadableSetting field =>
    "error parsing value for field \"" ++ field ++ "\" from source \"EnvSettingsSource\""
  | badConfigFile path => "Invalid TOML in " ++ path
  | nameTaken => "plugin name already registered"
  | importFailed reason => reason
  | host kind args => argumentText kind args

/-- The values that a failure writes out when it is asked for its text. The text of a rejection is
made with the rejection. -/
def shown : Failure → List Value
  | malformed m => [m]
  | general m => [m]
  | nullField key => [key]
  | unknownTag v => [v]
  | missingKey key => [key]
  | host _ args => args
  | _ => []

/-- Whether a failure can be asked for its text: what it writes out has no number that is too
long. -/
def isTellable (f : Failure) : Bool := Value.areWritable f.shown

/-- The text of a failure. Asking for it is a failure itself where the text cannot be written. -/
def message (f : Failure) : Except Failure String :=
  if f.isTellable then .ok f.wording else .error .tooLongToWrite

/-- The name of a failure's kind, as it appears in results. -/
def kind : Failure → String
  | rejected _ => "ActionValidateError"
  | mismatch .. => "TypeMismatchError"
  | required => "RequiredError"
  | malformed _ => "ActionCreateError"
  | general _ => "JackpropError"
  | unfit .. => "ValidationError"
  | nullField _ => "TypeError"
  | noAttribute .. => "AttributeError"
  | unknownTag _ => "ValueError"
  | frozenField _ => "FrozenInstanceError"
  | missingKey _ => "KeyError"
  | notIterable _ => "TypeError"
  | misused _ => "TypeError"
  | elementNotSequence _ => "TypeError"
  | elementLength .. => "ValueError"
  | unhashable _ => "TypeError"
  | beyondDouble _ => "OverflowError"
  | outsideCalendar => "OverflowError"
  | notText .. => "TypeError"
  | unorderedKeys .. => "TypeError"
  | keyNotWritable _ => "TypeError"
  | notSerializable _ => "PydanticSerializationError"
  | tooManyDigits _ => "ValueError"
  | tooLongToWrite => "ValueError"
  | notJsonText _ => "TypeError"
  | undecodable _ => "UnicodeDecodeError"
  | badParameter _ => "BadParameter"
  | unreadableSetting _ => "SettingsError"
  | badConfigFile _ => "ClickException"
  | nameTaken => "ValueError"
  | importFailed _ => "ModuleNotFoundError"
  | host kind _ => kind

/-- Names in quotes as one enumeration. -/
def enumeration : List String → String
  | [a, b] => quoteText a ++ " and " ++ quoteText b
  | names => match names.map quoteText |>.reverse with
    | last :: rest@(_ :: _) => ", ".intercalate rest.reverse ++ ", and " ++ last
    | quoted => String.join quoted

/-- A call without arguments that have to be given. -/
def missingArguments (owner : String) (names : List String) : Failure :=
  .misused (owner ++ "() missing " ++ toString names.length ++ " required positional argument" ++
    (if names.length = 1 then "" else "s") ++ ": " ++ enumeration names)

/-- What a shape's error dictionary holds for a failing field: the error tree of a rejection, and
the text of any other failure, if it can be told. -/
def entry (f : Failure) : Except Failure Value :=
  match f.errors? with
  | some errors => .ok errors
  | none => f.message.map .str

end Failure
end CheckedActions
