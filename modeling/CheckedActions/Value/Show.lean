import CheckedActions.Calendar.Timestamp
import CheckedActions.Text.Quoted
import CheckedActions.Value.Basic

/-!
Values as text. `quoted` is the form inside collections and diagnostics, where texts stand in
quotes; `text` is the form on its own, where a text stands for itself and dates are written out.
-/

namespace CheckedActions

/-- A date and time as an expression; trailing zero parts are left out after the minutes. -/
def DateTime.quoted (t : DateTime) : String :=
  let required := [t.date.year, t.date.month, t.date.day, t.hour, t.minute]
  let parts :=
    if t.microsecond ≠ 0 then required ++ [t.second, t.microsecond]
    else if t.second ≠ 0 then required ++ [t.second]
    else required
  let zone := match t.offset with
    | none => ""
    | some o =>
      if o = 0 then ", tzinfo=datetime.timezone.utc"
      else
        let days := o.fdiv 86400
        let seconds := o.fmod 86400
        let delta := ((if days = 0 then [] else ["days=" ++ toString days]) ++
          (if seconds = 0 then [] else ["seconds=" ++ toString seconds]))
        ", tzinfo=datetime.timezone(datetime.timedelta(" ++ ", ".intercalate delta ++ "))"
  "datetime.datetime(" ++ ", ".intercalate (parts.map toString) ++ zone ++ ")"

def Date.quoted (d : Date) : String :=
  "datetime.date(" ++ ", ".intercalate ([d.year, d.month, d.day].map toString) ++ ")"

namespace Value

def braced (s : String) : String := "\x7b" ++ s ++ "\x7d"

mutual
/-- The form inside collections. -/
def quoted : Value → String
  | undefined => "UNDEFINED"
  | null => "None"
  | bool b => if b then "True" else "False"
  | str s => quoteText s
  | int n => toString n
  | float x => x.write FloatLayout.plain
  | decimal d => "Decimal(" ++ quoteText d.write ++ ")"
  | fraction n d => "Fraction(" ++ toString n ++ ", " ++ toString d ++ ")"
  | complex re im => Binary64.writeComplex re im
  | bytes bs => quoteBytes bs
  | list xs => "[" ++ ", ".intercalate (quotedItems xs) ++ "]"
  | tuple xs => match quotedItems xs with
    | [x] => "(" ++ x ++ ",)"
    | parts => "(" ++ ", ".intercalate parts ++ ")"
  | set xs => if xs.isEmpty then "set()" else braced (", ".intercalate (quotedItems xs))
  | frozenset xs =>
    if xs.isEmpty then "frozenset()"
    else "frozenset(" ++ braced (", ".intercalate (quotedItems xs)) ++ ")"
  | dict es => braced (", ".intercalate (quotedEntries es))
  | mapping es => "mappingproxy(" ++ braced (", ".intercalate (quotedEntries es)) ++ ")"
  | datetime t => t.quoted
  | date d => d.quoted
  | func f => "<fn " ++ f.shown ++ ">"
  | obj _ => "<Obj>"
  | model fields => "Model(" ++ ", ".intercalate (quotedFields fields) ++ ")"
termination_by structural v => v

def quotedItems : List Value → List String
  | [] => []
  | x :: xs => x.quoted :: quotedItems xs
termination_by structural xs => xs

def quotedEntries : List (Value × Value) → List String
  | [] => []
  | (k, v) :: es => (k.quoted ++ ": " ++ v.quoted) :: quotedEntries es
termination_by structural es => es

def quotedFields : List (String × Value) → List String
  | [] => []
  | (k, v) :: fs => (k ++ "=" ++ v.quoted) :: quotedFields fs
termination_by structural fs => fs
end

/-- The form on its own. -/
def text : Value → String
  | str s => s
  | decimal d => d.write
  | fraction n d => if d = 1 then toString n else toString n ++ "/" ++ toString d
  | datetime t => t.iso " "
  | date d => d.iso
  | model fields => " ".intercalate (quotedFields fields)
  | mapping es => braced (", ".intercalate (quotedEntries es))
  | v => v.quoted

mutual
/-- Whether every whole number that is shown in a value's text is short enough to be written. -/
def isWritable : Value → Bool
  | int n => isShort n
  | fraction n d => isShort n && isShort d
  | list xs => areWritable xs
  | tuple xs => areWritable xs
  | set xs => areWritable xs
  | frozenset xs => areWritable xs
  | dict es => areWritableEntries es
  | mapping es => areWritableEntries es
  | model fields => areWritableFields fields
  | _ => true
termination_by structural v => v

def areWritable : List Value → Bool
  | [] => true
  | x :: xs => x.isWritable && areWritable xs
termination_by structural xs => xs

def areWritableEntries : List (Value × Value) → Bool
  | [] => true
  | (k, v) :: es => k.isWritable && v.isWritable && areWritableEntries es
termination_by structural es => es

def areWritableFields : List (String × Value) → Bool
  | [] => true
  | (_, v) :: fs => v.isWritable && areWritableFields fs
termination_by structural fs => fs
end

end Value
end CheckedActions
