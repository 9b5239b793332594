import CheckedActions.Calendar.DateTime
import CheckedActions.Number.Layout

/-!
Dates and times as text: the extended ISO 8601 form in its usual variants, and the timestamp of
results, which has milliseconds and a `Z` and writes the year without leading zeros.
-/

namespace CheckedActions

def pad2 (n : Nat) : String := zeroPad 2 (toString n)

namespace Date

/-- `YYYY-MM-DD`. -/
def iso (d : Date) : String :=
  zeroPad 4 (toString d.year) ++ "-" ++ pad2 d.month ++ "-" ++ pad2 d.day

end Date

namespace DateTime

/-- `HH:MM:SS`, with six more digits unless the microseconds are zero. -/
def clock (t : DateTime) : String :=
  pad2 t.hour ++ ":" ++ pad2 t.minute ++ ":" ++ pad2 t.second ++
    (if t.microsecond = 0 then "" else "." ++ zeroPad 6 (toString t.microsecond))

/-- `+HH:MM`, with seconds where the offset has any. -/
def offsetText (o : Int) : String :=
  let n := o.natAbs
  (if o < 0 then "-" else "+") ++ pad2 (n / 3600) ++ ":" ++ pad2 (n / 60 % 60) ++
    (if n % 60 = 0 then "" else ":" ++ pad2 (n % 60))

/-- The fields with the given text between date and time. -/
def iso (separator : String) (t : DateTime) : String :=
  t.date.iso ++ separator ++ t.clock ++ (t.offset.map offsetText).getD ""

/-- The form of reports: offset zero is `Z`, and any other has whole minutes only. -/
def reportIso (t : DateTime) : String :=
  t.date.iso ++ "T" ++ t.clock ++ match t.offset with
    | none => ""
    | some o =>
      if o = 0 then "Z"
      else
        let minutes := o.natAbs / 60
        (if o < 0 then "-" else "+") ++ pad2 (minutes / 60) ++ ":" ++ pad2 (minutes % 60)

/-- The fields with milliseconds and `Z`. -/
def stamp (t : DateTime) : String :=
  toString t.date.year ++ "-" ++ pad2 t.date.month ++ "-" ++ pad2 t.date.day ++ "T" ++
    pad2 t.hour ++ ":" ++ pad2 t.minute ++ ":" ++ pad2 t.second ++ "." ++
    zeroPad 3 (toString (t.microsecond / 1000)) ++ "Z"

/-- The timestamp of a date and time, in universal time if it has an offset; none where that
leaves the calendar. -/
def timestamp? (t : DateTime) : Option String :=
  match t.offset with
  | none => some t.stamp
  | some _ => t.toUniversal?.map stamp

end DateTime
end CheckedActions
