import CheckedActions.Failure
import CheckedActions.Named
import CheckedActions.Schema.WholeNumber
import CheckedActions.Value.Pairs

/-!
Checks of values against declared types. A check converts what it can (a `1` to true, a text of
digits to a number) and otherwise reports every problem it finds, in the order of the fields.
-/

namespace CheckedActions

abbrev Checked (α : Type) := Except (List Problem) α

namespace Checked

variable {α β : Type}

def problem (kind : ProblemKind) : Checked α := .error [⟨[], kind⟩]

/-- The check seen from one step further out. -/
def inside (p : Place) (c : Checked α) : Checked α := c.mapError (·.map (Problem.inside p))

/-- Both checks; the problems of the first come before those of the second. -/
def both (a : Checked α) (b : Checked β) : Checked (α × β) :=
  match a, b with
  | .ok x, .ok y => .ok (x, y)
  | .ok _, .error q => .error q
  | .error p, .ok _ => .error p
  | .error p, .error q => .error (p ++ q)

/-- The outcome of a check as that of a call. -/
def toExcept (c : Checked α) (wording : Wording) : Except Failure α :=
  c.mapError fun problems => .unfit problems (wording problems)

/-- Checks of all items, each inside its index. -/
def items (check : Value → Checked α) : Nat → List Value → Checked (List α)
  | _, [] => .ok []
  | i, v :: vs =>
    ((inside (.index i) (check v)).both (items check (i + 1) vs)).map fun (x, xs) => x :: xs

end Checked

namespace Schema

open Checked

/-- The text of bytes in UTF-8. -/
def textOfBytes? (bs : List UInt8) : Option String :=
  let array : ByteArray := ⟨bs.toArray⟩
  if h : array.IsValidUTF8 then some (String.fromUTF8 array h) else none

/-- A text in the spellings of true and false. -/
def boolOfText? (s : String) : Option Bool :=
  let t := s.map Char.toLower
  if ["0", "off", "f", "false", "n", "no"].contains t then some false
  else if ["1", "on", "t", "true", "y", "yes"].contains t then some true
  else none

def boolOfText (s : String) : Checked Bool :=
  match boolOfText? s with
  | some b => .ok b
  | none => problem .boolParsing

/-- A whole number as true or false. One of more than 64 bits counts as no whole number. -/
def boolOfInt (n : Int) : Checked Bool :=
  if n = 0 then .ok false
  else if n = 1 then .ok true
  else if isWord n then problem .boolParsing
  else problem .boolType

/-- The double nearest to a real number that is not an integer by its kind. -/
def realOf? : Value → Option Binary64
  | .float x => some x
  | .decimal (.finite negative coefficient exponent) =>
    some (Binary64.ofDecimal negative coefficient exponent)
  | .fraction n d =>
    let x := Binary64.ofRatio (decide (n < 0)) n.natAbs d
    if x.isFinite then some x else none
  | _ => none

/-- A double that is whole and lies strictly between the two ends of 64 bits. -/
def intOfReal (x : Binary64) : Checked Int :=
  if x.isFinite then
    match x.toInt? with
    | some n => if isWord n && isWord (-n) then .ok n else problem .intParsingSize
    | none => problem .intFromFloat
  else problem .finiteNumber

def bool (v : Value) : Checked Bool :=
  match v with
  | .bool b => .ok b
  | .int n => boolOfInt n
  | .str s => boolOfText s
  | .bytes bs => match textOfBytes? bs with
    | some s => boolOfText s
    | none => problem .boolParsing
  | v => match (realOf? v).map intOfReal with
    | some (.ok n) => boolOfInt n
    | _ => problem .boolType

/-- The whole number a text writes. -/
def intOfText (s : String) : Checked Int :=
  match WholeNumber.ofText s with
  | .ok n => .ok n
  | .error kind => problem kind

/-- A rational number that is whole, of any size. -/
def intOfRat (q : Rat) : Checked Int :=
  if q.den = 1 then .ok q.num else problem .intFromFloat

def intOfDecimal (d : Decimal) : Checked Int :=
  match d.toRat? with
  | some q => intOfRat q
  | none => problem .finiteNumber

def int (v : Value) : Checked Int :=
  match v with
  | .bool b => .ok (if b then 1 else 0)
  | .int n => .ok n
  | .str s => intOfText s
  | .bytes bs => match textOfBytes? bs with
    | some s => intOfText s
    | none => problem .intParsing
  | .float x => intOfReal x
  | .decimal d => intOfDecimal d
  | .fraction n d => intOfRat (mkRat n d)
  | _ => problem .intType

def str (v : Value) : Checked String :=
  match v with
  | .str s => .ok s
  | .bytes bs => match textOfBytes? bs with
    | some s => .ok s
    | none => problem .stringUnicode
  | _ => problem .stringType

/-- The items of a value that yields some and is neither a text nor a dictionary. -/
def sequence? : Value → Option (List Value)
  | .str _ => none
  | .bytes _ => none
  | .dict _ => none
  | .mapping _ => none
  | v => v.items?

def strings (kind : ProblemKind) (v : Value) : Checked (List String) :=
  match sequence? v with
  | some vs => items str 0 vs
  | none => problem kind

/-- Entries with keys that are texts. -/
def textKeys {α : Type} : List (Value × α) → Checked (List (String × α))
  | [] => .ok []
  | (k, a) :: rest =>
    let key := inside (Place.ofKey k) (inside (.name "[key]") (str k))
    (key.both (textKeys rest)).map fun (name, es) => (name, a) :: es

/-- Entries under texts. Keys can differ and still be the same text; the last of them counts. -/
def recordEntries {α : Type} (es : List (Value × α)) : Checked (List (String × α)) :=
  (textKeys es).map putAllNamed

def record (v : Value) : Checked (List (String × Value)) :=
  match v.entries? with
  | some es => recordEntries es
  | none => problem .dictType

def nullable {α : Type} (check : Value → Checked α) (v : Value) : Checked (Option α) :=
  match v with
  | .null => .ok none
  | v => (check v).map some

/-- A nested record's entries. -/
def modelEntries (v : Value) : Checked Entries :=
  match v.entries? with
  | some es => .ok es
  | none => problem .modelType

/-- The field of a record, the default standing in for one that is not given. -/
def field {α : Type} (es : Entries) (name : String) (default : α) (check : Value → Checked α) :
    Checked α :=
  match es.field? name with
  | some v => inside (.name name) (check v)
  | none => .ok default

/-- The field of a record that has to be given. -/
def requiredField {α : Type} (es : Entries) (name : String) (check : Value → Checked α) :
    Checked α :=
  match es.field? name with
  | some v => inside (.name name) (check v)
  | none => inside (.name name) (problem .missing)

/-- Entries that are given by name, which only texts can be. -/
def keywords (es : Entries) : Except Failure Entries :=
  if es.all fun (k, _) => k.isString then .ok es else .error (.misused "keywords must be strings")

/-- Setting a field of a finished record. Names with an underscore in front are no fields and stay
out of the record. -/
def assign (name : String) (wording : Wording) : Except Failure Unit :=
  if name.toList.head? = some '_' then .ok ()
  else (problem .frozenInstance |>.inside (.name name)).toExcept wording

end Schema
end CheckedActions
