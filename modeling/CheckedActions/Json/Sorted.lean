import CheckedActions.Json.Document
import CheckedActions.Value.Access
import CheckedActions.Value.Order

/-!
Documents of values. Keys that are not texts are written as texts, and so are values that JSON has
no form for. Whole numbers of too many digits are not written. Results that are printed on their own
have sorted keys.
-/

namespace CheckedActions

namespace Value

/-- The name of a value's kind without the name of its family. -/
def shortKindName (v : Value) : String :=
  String.ofList (v.kindName.toList.reverse.takeWhile (· ≠ '.')).reverse

/-- The text a key is written as. -/
def keyText : Value → Except Failure String
  | str s => .ok s
  | float x => .ok (x.write FloatLayout.extended)
  | bool b => .ok (if b then "true" else "false")
  | null => .ok "null"
  | int n => (int n).ifWritable (toString n)
  | v => .error (.keyNotWritable v.shortKindName)

end Value

namespace Json

/-- Members one after another, each key before its value, up to the first failure. -/
def collectMembers :
    List (Value × Except Failure Document) → Except Failure (List (String × Document))
  | [] => .ok []
  | (k, outcome) :: rest => do
    let name ← k.keyText
    let d ← outcome
    return (name, d) :: (← collectMembers rest)

/-- An object, its members sorted or in the given order. -/
def objectOf (sorted : Bool) (members : List (Value × Except Failure Document)) :
    Except Failure Document :=
  if sorted then do return .object (← collectMembers (← Keyed.sort members))
  else (collectMembers members).map .object

end Json

namespace Value

open Json (Document)

mutual
/-- The document of a value, with sorted keys if wanted; `other` gives the texts of values that
JSON has no form for. -/
def toDocument (sorted : Bool) (other : Value → Except Failure String) :
    Value → Except Failure Document
  | null => .ok .null
  | bool b => .ok (.bool b)
  | int n => (int n).ifWritable (.int n)
  | float x => .ok (.float x)
  | str s => .ok (.text s)
  | list xs => (documentItems sorted other xs).map .array
  | tuple xs => (documentItems sorted other xs).map .array
  | dict es => Json.objectOf sorted (documentEntries sorted other es)
  | v => (other v).map .text
termination_by structural v => v

def documentItems (sorted : Bool) (other : Value → Except Failure String) :
    List Value → Except Failure (List Document)
  | [] => .ok []
  | x :: xs => do
    let d ← x.toDocument sorted other
    return d :: (← documentItems sorted other xs)
termination_by structural xs => xs

def documentEntries (sorted : Bool) (other : Value → Except Failure String) :
    List (Value × Value) → List (Value × Except Failure Document)
  | [] => []
  | (k, v) :: es => (k, v.toDocument sorted other) :: documentEntries sorted other es
termination_by structural es => es
end

/-- The document of a result on its own. -/
def toSorted (v : Value) : Except Failure Document := v.toDocument true written

/-- The printed form of a result. -/
def resultText (v : Value) : Except Failure String :=
  v.toSorted.map (Document.render Json.Style.result)

end Value
end CheckedActions
