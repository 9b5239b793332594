import CheckedActions.Json.Document
import CheckedActions.Schema.Check

/-!
Documents of whole reports. Entries keep their order. Dates and times, decimals, bytes and complex
numbers become texts; what has no written form at all makes the report fail, and so does nesting
beyond the depth at which a report is taken to be endless.
-/

namespace CheckedActions

/-- Complex numbers in reports have plain parts of any length. -/
def FloatLayout.positional : FloatLayout := ⟨-400, 400, 1, false, "NaN", "inf", "-inf"⟩

namespace Binary64

def isNonNegative : Binary64 → Bool
  | .nan => false
  | .infinity negative => !negative
  | .finite negative m _ => !negative || m = 0

/-- A complex number, a real part of zero being left out. -/
def reportComplex (re im : Binary64) : String :=
  let imaginary := im.write FloatLayout.positional ++ "j"
  if re.isZero then imaginary
  else re.write FloatLayout.positional ++ (if im.isNonNegative then "+" else "") ++ imaginary

end Binary64

namespace Value

open Json (Document)

/-- What says that a value is not of a kind that a report can hold. -/
def unreported (v : Value) : Failure :=
  .notSerializable ("Unable to serialize unknown type: <class " ++ quoteText v.kindName ++ ">")

/-- What says why a report could not be written to its end. -/
def reportFault (reason : String) : Failure :=
  .notSerializable ("Error serializing to JSON: " ++ reason)

/-- What says that a value lies deeper than a report goes. -/
def endlessReport : Failure :=
  reportFault "ValueError: Circular reference detected (depth exceeded)"

/-- The text of bytes in a report. -/
def reportBytes (bs : List UInt8) : Except Failure String :=
  match Schema.textOfBytes? bs with
  | some s => .ok s
  | none => .error (reportFault "invalid utf-8 sequence")

mutual
/-- The text of a key in a report. Unlike a value, a key that is a whole number has to be short. -/
def reportKey : Value → Except Failure String
  | str s => .ok s
  | null => .ok "None"
  | bool b => .ok (if b then "true" else "false")
  | int n =>
    if isShort n then .ok (toString n)
    else .error (reportFault ("ValueError: " ++ Failure.digitLimitText))
  | float x => .ok (if x.isFinite then x.write FloatLayout.plain else "None")
  | decimal d => .ok d.write
  | complex re im => .ok (Binary64.reportComplex re im)
  | bytes bs => reportBytes bs
  | datetime t => .ok t.reportIso
  | date d => .ok d.iso
  | tuple xs => (reportKeys xs).map (",".intercalate ·)
  | v => .error v.unreported
termination_by structural v => v

def reportKeys : List Value → Except Failure (List String)
  | [] => .ok []
  | x :: xs => do
    let k ← x.reportKey
    return k :: (← reportKeys xs)
termination_by structural xs => xs
end

/-- How many levels of values a report follows, the innermost one counted. -/
def reportDepth : Nat := 255

mutual
/-- The document of a value inside a report that follows so many levels. -/
def toReport : Value → Nat → Except Failure Document
  | _, 0 => .error endlessReport
  | null, _ + 1 => .ok .null
  | bool b, _ + 1 => .ok (.bool b)
  | int n, _ + 1 => .ok (.int n)
  | float x, _ + 1 => .ok (.float x)
  | str s, _ + 1 => .ok (.text s)
  | decimal d, _ + 1 => .ok (.text d.write)
  | complex re im, _ + 1 => .ok (.text (Binary64.reportComplex re im))
  | bytes bs, _ + 1 => (reportBytes bs).map .text
  | datetime t, _ + 1 => .ok (.text t.reportIso)
  | date d, _ + 1 => .ok (.text d.iso)
  | list xs, depth + 1 => (reportItems xs depth).map .array
  | tuple xs, depth + 1 => (reportItems xs depth).map .array
  | set xs, depth + 1 => (reportItems xs depth).map .array
  | frozenset xs, depth + 1 => (reportItems xs depth).map .array
  | dict es, depth + 1 => (reportEntries es depth).map .object
  | model fields, depth + 1 => (reportFields fields depth).map .object
  | v, _ + 1 => .error v.unreported
termination_by structural v => v

def reportItems : List Value → Nat → Except Failure (List Document)
  | [], _ => .ok []
  | x :: xs, depth => do
    let d ← x.toReport depth
    return d :: (← reportItems xs depth)
termination_by structural xs => xs

def reportEntries : List (Value × Value) → Nat → Except Failure (List (String × Document))
  | [], _ => .ok []
  | (k, v) :: es, depth => do
    let name ← k.reportKey
    let d ← v.toReport depth
    return (name, d) :: (← reportEntries es depth)
termination_by structural es => es

def reportFields : List (String × Value) → Nat → Except Failure (List (String × Document))
  | [], _ => .ok []
  | (k, v) :: fs, depth => do
    let d ← v.toReport depth
    return (k, d) :: (← reportFields fs depth)
termination_by structural fs => fs
end

/-- The document of values under names. The levels are counted from each of them. -/
def reportTable (fields : List (String × Value)) : Except Failure Document :=
  (reportFields fields reportDepth).map .object

end Value
end CheckedActions
