import CheckedActions.Value.Access

/-!
Plain data: the null value, booleans, numbers, texts, lists and dictionaries with text keys.
`toPlain` brings every value into this form. Absent entries are dropped, dates become texts,
records dictionaries, and what is left over becomes its quoted form. An object with an
attribute for dumping itself is asked for a dump, and no attribute can be called that way. Keys and
quoted forms are texts, and as such have to be short enough to be written.
-/

namespace CheckedActions

namespace Value

mutual
/-- Whether a value is plain data at every level. -/
def isPlain : Value → Bool
  | null => true
  | bool _ => true
  | str _ => true
  | int _ => true
  | float _ => true
  | list xs => arePlain xs
  | dict es => arePlainEntries es
  | _ => false
termination_by structural v => v

def arePlain : List Value → Bool
  | [] => true
  | x :: xs => x.isPlain && arePlain xs
termination_by structural xs => xs

def arePlainEntries : List (Value × Value) → Bool
  | [] => true
  | (k, v) :: es => k.isString && v.isPlain && arePlainEntries es
termination_by structural es => es
end

/-- What asking for a dump fails with. Functions take no named arguments, and nothing else can be
called. -/
def dumpFailure : Value → Failure
  | func _ => .misused "Fn.__call__() got an unexpected keyword argument 'mode'"
  | v => .misused (quoteText v.kindName ++ " object is not callable")

/-- An object as plain data. -/
def plainObject (fields : List (String × Value)) : Except Failure Value :=
  match fields.lookup "model_dump" with
  | some dump => .error dump.dumpFailure
  | none => .ok (str (obj fields).quoted)

mutual
/-- The value as plain data. A date and time outside the calendar in universal time fails, and so
does a key or a left-over number that cannot be written. -/
def toPlain : Value → Except Failure Value
  | undefined => .ok null
  | null => .ok null
  | bool b => .ok (bool b)
  | str s => .ok (str s)
  | int n => .ok (int n)
  | float x => .ok (float x)
  | datetime t => match t.timestamp? with
    | some s => .ok (str s)
    | none => .error .outsideCalendar
  | date d => .ok (str d.iso)
  | dict es => do return dict (← plainEntries es [])
  | mapping es => do return dict (← plainEntries es [])
  | list xs => do return list (← plainItems xs)
  | tuple xs => do return list (← plainItems xs)
  | set xs => do return list (← plainItems xs)
  | frozenset xs => do return list (← plainItems xs)
  | model fields => do return dict (← plainFields fields [])
  | obj fields => plainObject fields
  | v => v.ifWritable (str v.quoted)
termination_by structural v => v

def plainItems : List Value → Except Failure (List Value)
  | [] => .ok []
  | x :: xs => do
    let y ← x.toPlain
    return y :: (← plainItems xs)
termination_by structural xs => xs

/-- The present entries under the texts of their keys, stored over those collected so far. -/
def plainEntries : List (Value × Value) → Entries → Except Failure Entries
  | [], done => .ok done
  | (k, v) :: es, done =>
    if v.isUndefined then plainEntries es done
    else do
      let name ← k.written
      let y ← v.toPlain
      plainEntries es (done.put (str name) y)
termination_by structural es => es

def plainFields : List (String × Value) → Entries → Except Failure Entries
  | [], done => .ok done
  | (k, v) :: fs, done =>
    if v.isUndefined then plainFields fs done
    else do
      let y ← v.toPlain
      plainFields fs (done.put (str k) y)
termination_by structural fs => fs
end

end Value
end CheckedActions
