import CheckedActions.Value.Key

/-!
Reading JSON. Beyond the standard, `NaN` and the infinities are numbers, and of repeated keys the
last value counts. What is wrong with a text is reported with the place where it shows: the part of
the text from there on.
-/

namespace CheckedActions.Json

/-- What is wrong with a text. -/
inductive Reason where
  | expectingValue
  | expectingKey
  | expectingColon
  | expectingComma
  | unterminatedString
  | controlCharacter
  | badEscape
  | badUnicodeEscape
  | extraData
  | byteOrderMark
  deriving DecidableEq

def Reason.message : Reason → String
  | expectingValue => "Expecting value"
  | expectingKey => "Expecting property name enclosed in double quotes"
  | expectingColon => "Expecting ':' delimiter"
  | expectingComma => "Expecting ',' delimiter"
  | unterminatedString => "Unterminated string starting at"
  | controlCharacter => "Invalid control character at"
  | badEscape => "Invalid \\escape"
  | badUnicodeEscape => "Invalid \\uXXXX escape"
  | extraData => "Extra data"
  | byteOrderMark => "Unexpected UTF-8 BOM (decode using utf-8-sig)"

inductive Fault where
  /-- The text is no JSON, which shows where the given rest of it begins. -/
  | malformed (reason : Reason) (rest : List Char)
  /-- A whole number has more digits than are read. -/
  | tooManyDigits (count : Nat)

def isSpace (c : Char) : Bool := c = ' ' || c = '\t' || c = '\n' || c = '\r'

def skipSpace (cs : List Char) : List Char := cs.dropWhile isSpace

def hexValue? (c : Char) : Option Nat :=
  let n := c.toNat
  if 48 ≤ n ∧ n ≤ 57 then some (n - 48)
  else if 65 ≤ n ∧ n ≤ 70 then some (n - 55)
  else if 97 ≤ n ∧ n ≤ 102 then some (n - 87)
  else none

/-- The number four hexadecimal digits write. -/
def fourHex? (cs : List Char) : Option Nat :=
  match cs with
  | a :: b :: c :: d :: _ => do
    let a ← hexValue? a
    let b ← hexValue? b
    let c ← hexValue? c
    let d ← hexValue? d
    some (((a * 16 + b) * 16 + c) * 16 + d)
  | _ => none

def isHighSurrogate (n : Nat) : Bool := 0xd800 ≤ n && n ≤ 0xdbff
def isLowSurrogate (n : Nat) : Bool := 0xdc00 ≤ n && n ≤ 0xdfff

/-- The character of a number. A surrogate on its own is a character of no text; the replacement
stands in its place, and what is read then tells only that the text was taken. -/
def charOf (n : Nat) : Char :=
  if isHighSurrogate n || isLowSurrogate n then '\ufffd' else Char.ofNat n

def simpleEscape? : Char → Option Char
  | '"' => some '"'
  | '\\' => some '\\'
  | '/' => some '/'
  | 'b' => some '\x08'
  | 'f' => some '\x0c'
  | 'n' => some '\n'
  | 'r' => some '\r'
  | 't' => some '\t'
  | _ => none

/-- The character after `\u`, given the text from the `u` on. Two escapes that are a surrogate pair
are one character. The digits have to be followed by something. -/
def unicodeEscape (atU : List Char) : Except Fault (Char × List Char) :=
  let digits := atU.drop 1
  let rest := digits.drop 4
  match fourHex? digits, rest with
  | some n, _ :: _ =>
    match rest with
    | '\\' :: 'u' :: more =>
      if isHighSurrogate n ∧ 4 < more.length then
        match fourHex? more with
        | none => .error (.malformed .badUnicodeEscape ('u' :: more))
        | some m =>
          if isLowSurrogate m then
            .ok (Char.ofNat (0x10000 + (n - 0xd800) * 0x400 + (m - 0xdc00)), more.drop 4)
          else .ok (charOf n, rest)
      else .ok (charOf n, rest)
    | _ => .ok (charOf n, rest)
  | _, _ => .error (.malformed .badUnicodeEscape atU)

/-- The characters up to the closing quote. `start` is the text from the opening quote on. -/
def stringBody (start : List Char) : Nat → List Char → Except Fault (List Char × List Char)
  | 0, _ => .error (.malformed .unterminatedString start)
  | _, [] => .error (.malformed .unterminatedString start)
  | _ + 1, '"' :: rest => .ok ([], rest)
  | fuel + 1, '\\' :: rest =>
    match rest with
    | [] => .error (.malformed .unterminatedString start)
    | 'u' :: _ => do
      let (c, rest) ← unicodeEscape rest
      let (cs, rest) ← stringBody start fuel rest
      .ok (c :: cs, rest)
    | e :: after =>
      match simpleEscape? e with
      | some c => do
        let (cs, rest) ← stringBody start fuel after
        .ok (c :: cs, rest)
      | none => .error (.malformed .badEscape ('\\' :: rest))
  | fuel + 1, c :: rest =>
    if c.toNat < 32 then .error (.malformed .controlCharacter (c :: rest))
    else do
      let (cs, rest) ← stringBody start fuel rest
      .ok (c :: cs, rest)

/-- The string after an opening quote. -/
def readString (afterQuote : List Char) : Except Fault (String × List Char) :=
  (stringBody ('"' :: afterQuote) (afterQuote.length + 1) afterQuote).map fun (cs, rest) =>
    (String.ofList cs, rest)

/-- Whether a minus begins a text, and what follows it. -/
def splitSign (cs : List Char) : Bool × List Char :=
  match cs with
  | '-' :: rest => (true, rest)
  | rest => (false, rest)

/-- The digits of a whole number. Nothing follows a zero that begins them. -/
def wholeDigits (cs : List Char) : List Char :=
  match cs with
  | '0' :: _ => ['0']
  | cs => cs.takeWhile Char.isDigit

/-- The digits of a fraction, if a point with a digit begins the text. -/
def fractionDigits (cs : List Char) : List Char :=
  match cs with
  | '.' :: rest => rest.takeWhile Char.isDigit
  | _ => []

/-- The exponent, if one begins the text, and what follows. -/
def exponent? (cs : List Char) : Option (Int × List Char) :=
  let number (negative : Bool) (rest : List Char) : Option (Int × List Char) :=
    let ds := rest.takeWhile Char.isDigit
    if ds.isEmpty then none
    else
      let n : Int := Decimal.natOf ds
      some (if negative then -n else n, rest.dropWhile Char.isDigit)
  match cs with
  | e :: rest =>
    if e = 'e' ∨ e = 'E' then
      match rest with
      | '-' :: rest => number true rest
      | '+' :: rest => number false rest
      | rest => number false rest
    else none
  | [] => none

/-- The longest number that begins a text. -/
def readNumber (start : List Char) : Except Fault (Value × List Char) :=
  let (negative, cs) := splitSign start
  let whole := wholeDigits cs
  if whole.isEmpty then .error (.malformed .expectingValue start)
  else
    let afterWhole := cs.drop whole.length
    let places := fractionDigits afterWhole
    let afterPlaces := if places.isEmpty then afterWhole else afterWhole.drop (places.length + 1)
    match exponent? afterPlaces, places.isEmpty with
    | none, true =>
      if digitLimit < whole.length then .error (.tooManyDigits whole.length)
      else
        let n : Int := Decimal.natOf whole
        .ok (.int (if negative then -n else n), afterWhole)
    | none, false =>
      .ok (.float (Binary64.ofDecimal negative (Decimal.natOf (whole ++ places))
        (-(places.length : Int))), afterPlaces)
    | some (e, rest), _ =>
      .ok (.float (Binary64.ofDecimal negative (Decimal.natOf (whole ++ places))
        (e - places.length)), rest)

/-- The words that are values. -/
def words : List (List Char × Value) :=
  [("null".toList, .null), ("true".toList, .bool true), ("false".toList, .bool false),
   ("NaN".toList, .float .nan), ("Infinity".toList, .float (.infinity false)),
   ("-Infinity".toList, .float (.infinity true))]

mutual
/-- The value that begins a text. -/
def readValue : Nat → List Char → Except Fault (Value × List Char)
  | 0, cs => .error (.malformed .expectingValue cs)
  | fuel + 1, cs =>
    match cs with
    | '"' :: rest => (readString rest).map fun (s, rest) => (.str s, rest)
    | '{' :: rest =>
      match skipSpace rest with
      | '}' :: rest => .ok (.dict [], rest)
      | rest => (readMembers fuel [] rest).map fun (es, rest) => (.dict es, rest)
    | '[' :: rest =>
      match skipSpace rest with
      | ']' :: rest => .ok (.list [], rest)
      | rest => (readItems fuel rest).map fun (vs, rest) => (.list vs, rest)
    | cs =>
      match words.find? fun (w, _) => w.isPrefixOf cs with
      | some (w, v) => .ok (v, cs.drop w.length)
      | none => readNumber cs
termination_by structural fuel => fuel

/-- The items of an array up to its end. -/
def readItems : Nat → List Char → Except Fault (List Value × List Char)
  | 0, cs => .error (.malformed .expectingValue cs)
  | fuel + 1, cs => do
    let (v, rest) ← readValue fuel cs
    match skipSpace rest with
    | ']' :: rest => .ok ([v], rest)
    | ',' :: rest => do
      let (vs, rest) ← readItems fuel (skipSpace rest)
      .ok (v :: vs, rest)
    | rest => .error (.malformed .expectingComma rest)
termination_by structural fuel => fuel

/-- The members of an object up to its end, stored over those read so far. -/
def readMembers : Nat → Entries → List Char → Except Fault (Entries × List Char)
  | 0, _, cs => .error (.malformed .expectingKey cs)
  | fuel + 1, done, cs =>
    match cs with
    | '"' :: rest => do
      let (key, rest) ← readString rest
      match skipSpace rest with
      | ':' :: rest => do
        let (v, rest) ← readValue fuel (skipSpace rest)
        let done := Keyed.put done (.str key) v
        match skipSpace rest with
        | '}' :: rest => .ok (done, rest)
        | ',' :: rest => readMembers fuel done (skipSpace rest)
        | rest => .error (.malformed .expectingComma rest)
      | rest => .error (.malformed .expectingColon rest)
    | cs => .error (.malformed .expectingKey cs)
termination_by structural fuel => fuel
end

def byteOrderMark : Char := '\ufeff'

/-- The value a text without a byte order mark writes, blanks around it aside. -/
def readUnmarked (cs : List Char) : Except Fault Value := do
  let (v, rest) ← readValue (cs.length + 1) (skipSpace cs)
  match skipSpace rest with
  | [] => .ok v
  | rest => .error (.malformed .extraData rest)

/-- The value a text writes. A byte order mark in front of it is a fault of its own. -/
def read (cs : List Char) : Except Fault Value :=
  match cs with
  | c :: rest =>
    if c = byteOrderMark then .error (.malformed .byteOrderMark (c :: rest)) else readUnmarked cs
  | [] => readUnmarked cs

/-- A place in a text by line, by column in the line, and by index, given what comes before it. -/
def placeText (before : List Char) : String :=
  let line := (before.filter (· = '\n')).length + 1
  let column := (before.reverse.takeWhile (· ≠ '\n')).length + 1
  "line " ++ toString line ++ " column " ++ toString column ++ " (char " ++
    toString before.length ++ ")"

/-- What is wrong, and where in the text. -/
def faultText (text : List Char) (reason : Reason) (rest : List Char) : String :=
  reason.message ++ ": " ++ placeText (text.take (text.length - rest.length))

end CheckedActions.Json
