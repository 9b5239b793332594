import CheckedActions.Config.Surroundings
import CheckedActions.Failure
import CheckedActions.Json.Reader
import CheckedActions.Named

/-!
Settings from environment variables. Names count without regard to case. A variable holds a whole
field, or after two underscores a part of one, which goes over the whole. Fields that are no plain
values are written as JSON.
-/

namespace CheckedActions.Config

/-- How a field is declared: a plain value or a structured one, with the fields inside it. -/
inductive FieldForm where
  | plain
  | structured (fields : List (String × FieldForm))

/-- The fields of the settings. -/
def forms : List (String × FieldForm) :=
  [("config_path", .plain), ("json_output", .plain), ("quiet", .plain), ("verbose", .plain),
   ("log_json", .plain), ("modules", .structured []),
   ("registry", .structured [("modules", .structured []), ("entry_points", .plain)]),
   ("output", .structured [("width", .plain)])]

def lowered (s : String) : String := s.map Char.toLower

/-- What the names of variables begin with. -/
def namePrefix : String := "jackprop_"

mutual
/-- A value in place of an older one; a dictionary goes over an older dictionary. -/
def mergeValue (old? : Option Value) : Value → Value
  | .dict upper => match old? with
    | some (.dict lower) => .dict (merge lower upper)
    | _ => .dict upper
  | v => v
termination_by structural v => v

/-- Entries over older ones, dictionaries being merged at every level. -/
def merge (lower : Entries) : List (Value × Value) → Entries
  | [] => lower
  | (k, v) :: upper => merge (lower.put k (mergeValue (lower.get? k) v)) upper
termination_by structural upper => upper
end

/-- A value of a field, written as JSON. -/
def decode (name text : String) : Except Failure Value :=
  match Json.read text.toList with
  | .ok v => .ok v
  | .error _ => .error (.unreadableSetting name)

/-- The form of a field inside another one. -/
def FieldForm.inner? : FieldForm → String → Option FieldForm
  | plain, _ => none
  | structured fields, key =>
    (fields.find? fun (name, _) => name = key || namePrefix ++ name = key).map (·.2)

def FieldForm.innerAt? : FieldForm → List String → Option FieldForm
  | form, [] => some form
  | form, key :: keys => (form.inner? key).bind (·.innerAt? keys)

/-- The text cut at every pair of underscores. -/
def cutAtDelimiter : List Char → List (List Char)
  | [] => [[]]
  | '_' :: '_' :: rest => [] :: cutAtDelimiter rest
  | c :: rest => match cutAtDelimiter rest with
    | piece :: pieces => (c :: piece) :: pieces
    | [] => [[c]]

/-- Stores a value under a path of keys; where a value is that is no dictionary, nothing is
stored. -/
def storeAt (v : Value) : List String → Entries → Entries
  | [], es => es
  | [k], es => es.put (.str k) v
  | k :: ks, es =>
    match es.field? k with
    | none => es.put (.str k) (.dict (storeAt v ks []))
    | some (.dict sub) => es.put (.str k) (.dict (storeAt v ks sub))
    | some _ => es

/-- The parts of a field that variables hold. Structured parts are written as JSON. -/
def partsOf (name : String) (form : FieldForm) :
    List (String × String) → Entries → Except Failure Entries
  | [], es => .ok es
  | (label, text) :: rest, es =>
    let start := (namePrefix ++ name ++ "__").toList
    if start.isPrefixOf label.toList then do
      let keys := (cutAtDelimiter (label.toList.drop start.length)).map String.ofList
      let v ← match form.innerAt? keys with
        | some (.structured _) => if text.isEmpty then pure (.str text) else decode name text
        | _ => pure (.str text)
      partsOf name form rest (storeAt v keys es)
    else partsOf name form rest es

/-- Names of declared fields in place of those that differ in case. -/
def declaredNames (form : FieldForm) (es : Entries) : Entries :=
  match form with
  | .structured fields =>
    Keyed.ofPairs (es.map fun (k, v) =>
      match k with
      | .str name =>
        match fields.find? fun (f, _) => lowered f = lowered name with
        | some (f, _) => (.str f, v)
        | none => (k, v)
      | k => (k, v))
  | .plain => es

/-- What variables hold for a field, if anything. -/
def fieldValue? (environment : List (String × String)) (name : String) (form : FieldForm) :
    Except Failure (Option Value) :=
  let whole? := environment.lookup (namePrefix ++ name)
  match form, whole? with
  | .plain, whole? => .ok (whole?.map .str)
  | form, none => do
    let parts ← partsOf name form environment []
    return if parts.isEmpty then none else some (.dict (declaredNames form parts))
  | form, some text => do
    match ← decode name text with
    | .dict es =>
      return some (.dict (declaredNames form (merge es (← partsOf name form environment []))))
    | .null => return none
    | v => return some v

/-- The settings that environment variables hold. -/
def fromVariables (environment : List (String × String)) : Except Failure Entries := do
  let environment := environment.foldl (fun vs (n, text) => putNamed vs (lowered n) text) []
  let fields ← forms.filterMapM fun (name, form) => do
    return (← fieldValue? environment name form).map fun v => (Value.str name, v)
  return fields

/-- The names of the variables that hold settings, in capitals. -/
def knownVariables : List String :=
  forms.flatMap fun (name, form) =>
    let whole := namePrefix ++ name
    let parts := match form with
      | .structured fields => fields.map fun (part, _) => whole ++ "__" ++ part
      | .plain => []
    (whole :: parts).map fun s => s.map Char.toUpper

end CheckedActions.Config
