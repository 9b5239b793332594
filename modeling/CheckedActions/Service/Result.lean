import CheckedActions.Schema.Check

/-!
What every service operation answers with: whether it succeeded, its payload, warnings, and a
structured error where it failed. Results never change.
-/

namespace CheckedActions

structure ServiceError where
  /-- A stable code for programs. -/
  code : String
  /-- A summary for people. -/
  message : String
  /-- What belongs to the code, such as an error tree. -/
  detail : List (String × Value) := []

structure ServiceResult where
  ok : Bool
  op : String
  data : List (String × Value) := []
  warnings : List String := []
  error? : Option ServiceError := none
  metadata? : Option (List (String × Value)) := none

namespace ServiceError

/-- An error from its fields. -/
def check (es : Entries) : Checked ServiceError :=
  let code := Schema.requiredField es "code" Schema.str
  let message := Schema.requiredField es "message" Schema.str
  let detail := Schema.field es "detail" [] Schema.record
  (code.both (message.both detail)).map fun (code, message, detail) => { code, message, detail }

def toValue (e : ServiceError) : Value :=
  Value.record
    [("code", .str e.code), ("message", .str e.message), ("detail", Value.record e.detail)]

end ServiceError

namespace ServiceResult

/-- A result from its fields. -/
def check (es : Entries) : Checked ServiceResult :=
  let ok := Schema.requiredField es "ok" Schema.bool
  let op := Schema.requiredField es "op" Schema.str
  let data := Schema.field es "data" [] Schema.record
  let warnings := Schema.field es "warnings" [] (Schema.strings .listType)
  let error := Schema.field es "error" none
    (Schema.nullable fun v => do ServiceError.check (← Schema.modelEntries v))
  let metadata := Schema.field es "meta" none (Schema.nullable Schema.record)
  (ok.both (op.both (data.both (warnings.both (error.both metadata))))).map
    fun (ok, op, data, warnings, error?, metadata?) =>
      { ok, op, data, warnings, error?, metadata? }

/-- A result whose error, where it is a dictionary, is made first and on its own. -/
def ofNested (es : Entries) (wording : Wording) : Except Failure ServiceResult := do
  match es.field? "error" with
  | some (.dict fields) =>
    let fields ← Schema.keywords fields
    let _ ← (ServiceError.check fields).toExcept wording
  | _ => pure ()
  (check es).toExcept wording

/-- The result of a failed operation. -/
def failure (op code message : String) (detail : List (String × Value))
    (warnings : List String) : ServiceResult :=
  { ok := false, op, warnings, error? := some { code, message, detail } }

/-- What the result of a failed operation is made from, first what has to be given. -/
def failureFields : List String × List String := (["op", "code", "message"], ["detail", "warnings"])

/-- The result of a failed operation from fields that have to be checked. A detail or warnings that
a condition takes for false are none. -/
def ofFailure (es : Entries) (wording : Wording) : Except Failure ServiceResult := do
  let es ← Schema.keywords es
  let (required, others) := failureFields
  match es.find? fun (k, _) => !(required ++ others).contains k.text with
  | some (k, _) =>
    throw (.misused ("ServiceResult.failure() got an unexpected keyword argument " ++ k.quoted))
  | none => pure ()
  let missing := required.filter fun name => (es.field? name).isNone
  if !missing.isEmpty then throw (.missingArguments "ServiceResult.failure" missing)
  let given (name : String) (empty : Value) : Value × Value :=
    let v := (es.field? name).getD .null
    (.str name, if v.truthy then v else empty)
  let parts := es.filter fun (k, _) => k.sameKey (.str "code") || k.sameKey (.str "message")
  let error := parts ++ [given "detail" (.dict [])]
  let _ ← (ServiceError.check error).toExcept wording
  (check [(.str "ok", .bool false), (.str "op", (es.field? "op").getD .null),
    (.str "error", .dict error), given "warnings" (.list [])]).toExcept wording

/-- The fields in order. -/
def fields (r : ServiceResult) : List (String × Value) :=
  [("ok", .bool r.ok), ("op", .str r.op), ("data", Value.record r.data),
   ("warnings", .list (r.warnings.map .str)),
   ("error", match r.error? with
    | some e => e.toValue
    | none => .null),
   ("meta", match r.metadata? with
    | some fields => Value.record fields
    | none => .null)]

end ServiceResult
end CheckedActions
