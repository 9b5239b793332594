import CheckedActions.Calendar.Epoch
import CheckedActions.Calendar.Reader
import CheckedActions.Failure
import CheckedActions.Text.Blank

/-!
Values as instants: date-times, dates, ISO 8601 texts and milliseconds since 1970, each brought to
universal time. A value that is no date gives none. The one failure is a number that has no
double-precision counterpart.
-/

namespace CheckedActions

/-- The instant a text writes, blanks around it aside. -/
def DateTime.ofText? (s : String) : Option DateTime := do
  let (t, offset?) ← IsoReader.read? (String.ofList (trimBlanks s.toList))
  match offset? with
  | none => some { t with offset := some 0 }
  | some offset => DateTime.ofMicros? (t.localMicros - offset)

namespace Value

/-- The double nearest to a real number; booleans, decimals and complex numbers are none. -/
def toDouble? : Value → Option (Except Failure Binary64)
  | int n =>
    let x := Binary64.ofInt n
    some (if x.isFinite then .ok x else .error (.beyondDouble false))
  | fraction n d =>
    let x := Binary64.ofRatio (decide (n < 0)) n.natAbs d
    some (if x.isFinite then .ok x else .error (.beyondDouble true))
  | float x => some (.ok x)
  | _ => none

/-- The instant a value stands for. -/
def toInstant (v : Value) : Except Failure (Option DateTime) :=
  match v with
  | datetime t => .ok t.toUniversal?
  | date d => .ok (some (DateTime.ofDate d))
  | str s => .ok (DateTime.ofText? s)
  | v => match v.toDouble? with
    | none => .ok none
    | some r => r.map DateTime.ofEpochMillis?

end Value
end CheckedActions
