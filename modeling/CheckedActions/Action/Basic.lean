import CheckedActions.Action.Descriptor

/-!
Actions. A call lays the supplied jacks and props over the defaults, validates both sides
together, and performs the action on the sanitized values only when both sides pass.
-/

namespace CheckedActions

variable {σ : Type}

/-- An action; the number tells actions with equal descriptors apart. -/
structure Action (σ : Type) where
  number : Nat
  descriptor : Descriptor σ

namespace Action

def logger : String := "jackprop.domain.actions"

/-- Makes an action from a proposal that passes its check. -/
def create (p : Proposal σ) (wording : Wording) : Call σ (Action σ) := do
  let d ← Call.ofExcept (p.check wording)
  Call.log .debug logger ("Created action " ++ d.name)
  return ⟨← Call.freshId, d⟩

def name (a : Action σ) : String := a.descriptor.name
def description (a : Action σ) : String := a.descriptor.description

/-- The way an action is shown. -/
def shown (a : Action σ) : String := "Action(name=" ++ quoteText a.name ++ ")"

/-- The validator of both sides of a call. -/
def inputType (d : Descriptor σ) : Validator σ :=
  Validator.root.shape
    [("jacks", .checked (Validator.root.shape d.jackTypes)),
     ("props", .checked (Validator.root.shape d.propTypes))]

/-- What a provider supplies now; without one there are no defaults. -/
def defaultsFrom : Option (Provider σ) → Call σ Entries
  | none => pure []
  | some provide => do Call.ofExcept (Entries.ofValue (← provide))

/-- The default jacks and props, computed afresh. -/
def defaults (a : Action σ) : Call σ (Entries × Entries) := do
  let jacks ← defaultsFrom a.descriptor.defaultJacks?
  let props ← defaultsFrom a.descriptor.defaultProps?
  return (jacks, props)

/-- The defaults with the supplied values over them, both sides sanitized. -/
def sanitize (a : Action σ) (defaults : Entries × Entries) (jacks props : Value) :
    Call σ (Value × Value) := do
  let j ← Call.ofExcept (Entries.extend (.dict defaults.1) jacks)
  let p ← Call.ofExcept (Entries.extend (.dict defaults.2) props)
  let input := Value.record [("jacks", .dict j), ("props", .dict p)]
  let sanitized ← (inputType a.descriptor).validate input
  return (← Call.ofExcept (sanitized.readField "jacks"),
    ← Call.ofExcept (sanitized.readField "props"))

/-- Performs the action on the given jacks and props, `null` or `undefined` standing for none. -/
def call (a : Action σ) (jacks props : Value) : Call σ Value := do
  let defaults ← a.defaults
  match ← Call.attempt (a.sanitize defaults jacks props) with
  | .error f =>
    match f.errors? with
    | some errors =>
      Call.log .debug logger
        ("Validation failed for action " ++ a.name ++ ": " ++ errors.text)
      throw f
    | none => throw f
  | .ok (j, p) =>
    Call.log .debug logger ("Performing action " ++ a.name)
    a.descriptor.perform j p

/-- The labels of declared fields. -/
def labels (fields : List (String × Field σ)) : Value :=
  Value.record (fields.map fun (k, f) => (k, f.label))

/-- A summary of the action in plain data. Providers are reported and not asked. -/
def describe (a : Action σ) : List (String × Value) :=
  let d := a.descriptor
  [("name", .str d.name), ("description", .str d.description),
   ("jacks", labels d.jackTypes), ("props", labels d.propTypes),
   ("has_default_jacks", .bool d.defaultJacks?.isSome),
   ("has_default_props", .bool d.defaultProps?.isSome)]

end Action
end CheckedActions
