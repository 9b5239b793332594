import CheckedActions.Service.Registry
import CheckedActions.Service.Result
import CheckedActions.Value.Plain

/-!
The operations on registered actions: list them, describe one, run one. A run that fails becomes a
failed result, if it can be told what it failed with, and observers are told of every run of a known
action. The errors that they are told are those of the result, which has them as the observers leave
them. While an action runs, its name is bound in the log.
-/

namespace CheckedActions.Service

variable {σ : Type}

def logger : String := "jackprop.services.actions"
def eventLogger : String := "jackprop.services.base"

def unknownAction (r : Registry σ) (op name : String) : Except Failure ServiceResult :=
  r.names.map fun names =>
    .failure op "UNKNOWN_ACTION" ("No action named " ++ quoteText name)
      [("name", .str name), ("available", .list names)] []

/-- All actions by name with their descriptions. -/
def list (r : Registry σ) : Except Failure ServiceResult :=
  r.sorted.map fun actions =>
    let items := actions.map fun (_, a) =>
      Value.record [("name", .str a.name), ("description", .str a.description)]
    { ok := true, op := "list_actions", warnings := r.warnings
      data := [("count", .int items.length), ("items", .list items)] }

def describe (r : Registry σ) (name : String) : Except Failure ServiceResult :=
  match r.get? (.str name) with
  | some a => .ok { ok := true, op := "describe_action", data := a.describe }
  | none => unknownAction r "describe_action" name

/-- What has become of errors that observers were told: only what can be changed in place is what
they leave. -/
def toldErrors (errors left : Value) : Value := if errors.isCompound then left else errors

/-- Tells the observers of a run, and returns what has become of its errors. That they fail is a
warning and no error. -/
def dispatch (r : Registry σ) (n : Notice) : Call σ (Value × List String) := do
  let (outcome, left) ← Call.withCell n.errors (r.plugins.notify n)
  let errors := toldErrors n.errors left
  match outcome with
  | .ok _ => return (errors, [])
  | .error _ =>
    let event := "Event dispatch failed for post_perform"
    Call.log .debug eventLogger event
    return (errors, [event])

/-- How a run of an action ended: with a value, with input that was rejected for the given reasons
and summary, or with another failure, told by its kind and text. -/
inductive Ending where
  | done (v : Value)
  | rejected (errors : Value) (summary : String)
  | failed (text : String)

/-- The ending of a run with the given outcome. A failure that cannot be told leaves no ending. -/
def Ending.ofOutcome : Except Failure Value → Except Failure Ending
  | .ok v => .ok (.done v)
  | .error f => match f.errors? with
    | some errors => .ok (.rejected errors f.wording)
    | none => f.message.map fun text => .failed (f.kind ++ ": " ++ text)

/-- The ending with other errors, if it has errors. -/
def Ending.withErrors (errors : Value) : Ending → Ending
  | rejected _ summary => rejected errors summary
  | ending => ending

/-- What observers are told of a run. -/
def Ending.notice (name : String) : Ending → Notice
  | done _ => ⟨name, true, .null⟩
  | rejected errors _ => ⟨name, false, errors⟩
  | failed text => ⟨name, false, .str text⟩

/-- The result of a run. The value of a run is made plain data only here. -/
def Ending.result (op name : String) (warnings : List String) :
    Ending → Except Failure ServiceResult
  | done v => do
    let plain ← v.toPlain
    return { ok := true, op, warnings, data := [("action", .str name), ("result", plain)] }
  | rejected errors summary =>
    .ok (.failure op "VALIDATION_FAILED" summary [("action", .str name), ("errors", errors)]
      warnings)
  | failed text => .ok (.failure op "PERFORM_FAILED" text [("action", .str name)] warnings)

/-- Logs that an action raised a failure that is no rejection. -/
def logRaised (name : String) : Except Failure Value → Call σ Unit
  | .ok _ => pure ()
  | .error f =>
    if f.isRejection then pure () else Call.log .debug logger ("Action " ++ name ++ " raised")

/-- Runs an action to its end and tells the observers. -/
def perform (r : Registry σ) (a : Action σ) (name : String) (jacks props : Value) :
    Call σ (Ending × List String) := do
  let outcome ← Call.attempt (a.call jacks props)
  logRaised name outcome
  let ending ← Call.ofExcept (Ending.ofOutcome outcome)
  let (errors, warnings) ← dispatch r (ending.notice name)
  return (ending.withErrors errors, warnings)

/-- Runs the action of that name. -/
def run (r : Registry σ) (name : String) (jacks props : Value) : Call σ ServiceResult := do
  let op := "run_action"
  match r.get? (.str name) with
  | none => Call.ofExcept (unknownAction r op name)
  | some a =>
    let (ending, warnings) ← Call.withAction name (perform r a name jacks props)
    Call.ofExcept (ending.result op name warnings)

end CheckedActions.Service
