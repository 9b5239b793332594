import CheckedActions.Value.Access

/-!
Reading one field of a value: an entry of a dictionary or mapping, an attribute of anything else.
A field that is not there reads as `undefined`; only the null value has no fields at all.
-/

namespace CheckedActions

/-- The calendar fields that can be read from a date. -/
def Date.field? (d : Date) (name : String) : Option Nat :=
  match name with
  | "year" => some d.year
  | "month" => some d.month
  | "day" => some d.day
  | _ => none

/-- The calendar and clock fields that can be read from a date and time. -/
def DateTime.field? (t : DateTime) (name : String) : Option Nat :=
  match name with
  | "hour" => some t.hour
  | "minute" => some t.minute
  | "second" => some t.second
  | "microsecond" => some t.microsecond
  | _ => t.date.field? name

namespace Value

/-- The attribute of that name, if the value has one. -/
def attribute? (v : Value) (name : String) : Option Value :=
  match v with
  | obj fields => fields.lookup name
  | model fields => fields.lookup name
  | datetime t => (t.field? name).map fun n => int n
  | date d => (d.field? name).map fun n => int n
  | _ => none

/-- The field of that name. -/
def readField (v : Value) (name : String) : Except Failure Value :=
  match v with
  | null => .error (.nullField (str name))
  | v => .ok (match v.entries? with
    | some es => (es.field? name).getD undefined
    | none => (v.attribute? name).getD undefined)

/-- The field under any key. Only texts name attributes. What is said of a key is said at once, and
not only when the failure is asked for its text. -/
def readKey (v key : Value) : Except Failure Value :=
  match v, key with
  | v, str name => v.readField name
  | null, key => do
    key.ifWritable ()
    throw (.nullField key)
  | v, key => match v.entries? with
    | some es => do
      let _ ← key.key.mapError Failure.unhashable
      return (es.get? key).getD undefined
    | none => .error (.misused ("attribute name must be string, not " ++ quoteText key.kindName))

end Value
end CheckedActions
