import CheckedActions.Schema.Check
import CheckedActions.Validator.Label

/-!
Descriptions of actions. A draft is what someone hands in, with any part missing or of the wrong
kind; a descriptor is complete. `Proposal.check` names the first part that is missing.
-/

namespace CheckedActions

/-- Does an action's work on sanitized jacks and props. -/
abbrev Handler (σ : Type) := Value → Value → Call σ Value

/-- Supplies default values afresh. -/
abbrev Provider (σ : Type) := Call σ Value

structure Descriptor (σ : Type) where
  name : String
  description : String
  jackTypes : List (String × Field σ)
  propTypes : List (String × Field σ)
  perform : Handler σ
  defaultJacks? : Option (Provider σ)
  defaultProps? : Option (Provider σ)

/-- What a draft holds where a table of field types belongs. -/
inductive FieldTable (σ : Type) where
  | fields (declared : List (Value × Field σ))
  | value (v : Value)

/-- What a draft holds where a function belongs. -/
inductive Callable (σ : Type) where
  | code (apply : List Value → Call σ Value)
  | value (v : Value)

structure Draft (σ : Type) where
  name? : Option Value := none
  description? : Option Value := none
  jackTypes? : Option (FieldTable σ) := none
  propTypes? : Option (FieldTable σ) := none
  perform? : Option (Callable σ) := none
  defaultJacks? : Option (Callable σ) := none
  defaultProps? : Option (Callable σ) := none

/-- What an action can be made from. -/
inductive Proposal (σ : Type) where
  | value (v : Value)
  | draft (d : Draft σ)
  | descriptor (d : Descriptor σ)

/-- The parts of an action, in the order in which they are looked for. -/
inductive ActionPart where
  | descriptor
  | name
  | description
  | jackTypes
  | propTypes
  | perform
  deriving DecidableEq

def ActionPart.missingText : ActionPart → String
  | descriptor => "An action is required"
  | name => "An action name is required"
  | description => "An action description is required"
  | jackTypes => "The action jack types are required"
  | propTypes => "The action prop types are required"
  | perform => "An action perform function is required"

def Failure.missingPart (p : ActionPart) : Failure := .malformed (.str p.missingText)

variable {σ : Type}

namespace FieldTable

/-- A table from a value, whose entries are no validators. -/
def ofValue (v : Value) : FieldTable σ :=
  match v.entries? with
  | some es => .fields (es.map fun (k, x) => (k, .raw x))
  | none => .value v

/-- The declared fields, whose names have to be texts. -/
def check : FieldTable σ → Checked (List (String × Field σ))
  | .fields fs => Schema.recordEntries fs
  | .value _ => Checked.problem .dictType

end FieldTable

namespace Callable

/-- Makes functions of references to functions. -/
def ofValue (resolve : FuncRef → List Value → Call σ Value) : Value → Callable σ
  | .func f => .code (resolve f)
  | v => .value v

def check : Callable σ → Checked (List Value → Call σ Value)
  | .code apply => .ok apply
  | .value _ => Checked.problem .callableType

/-- A provider, or none where the null value stands. -/
def checkProvider : Callable σ → Checked (Option (Provider σ))
  | .value .null => .ok none
  | c => c.check.map fun apply => some (apply [])

end Callable

namespace Draft

/-- A draft from the entries of a mapping. -/
def ofEntries (resolve : FuncRef → List Value → Call σ Value) (es : Entries) : Draft σ :=
  { name? := es.field? "name"
    description? := es.field? "description"
    jackTypes? := (es.field? "jack_types").map FieldTable.ofValue
    propTypes? := (es.field? "prop_types").map FieldTable.ofValue
    perform? := (es.field? "perform").map (Callable.ofValue resolve)
    defaultJacks? := (es.field? "get_default_jacks").map (Callable.ofValue resolve)
    defaultProps? := (es.field? "get_default_props").map (Callable.ofValue resolve) }

/-- A field of a record, the default standing in for one that is not given. -/
def part {α β : Type} (name : String) (given : Option α) (default : Checked β)
    (check : α → Checked β) : Checked β :=
  Checked.inside (.name name) (match given with
    | some a => check a
    | none => default)

/-- The descriptor of a draft, with every problem of its parts. -/
def complete (d : Draft σ) : Checked (Descriptor σ) :=
  let name := part "name" d.name? (Checked.problem .missing) Schema.str
  let description := part "description" d.description? (Checked.problem .missing) Schema.str
  let jacks := part "jack_types" d.jackTypes? (.ok []) FieldTable.check
  let props := part "prop_types" d.propTypes? (.ok []) FieldTable.check
  let perform := part "perform" d.perform? (Checked.problem .missing) Callable.check
  let defaultJacks := part "get_default_jacks" d.defaultJacks? (.ok none) Callable.checkProvider
  let defaultProps := part "get_default_props" d.defaultProps? (.ok none) Callable.checkProvider
  (name.both (description.both (jacks.both (props.both (perform.both
    (defaultJacks.both defaultProps)))))).map
      fun (name, description, jackTypes, propTypes, apply, defaultJacks?, defaultProps?) =>
        { name, description, jackTypes, propTypes
          perform := fun j p => apply [j, p]
          defaultJacks?, defaultProps? }

def isText : Option Value → Bool
  | some (.str _) => true
  | _ => false

def isTable : Option (FieldTable σ) → Bool
  | some (.fields _) => true
  | _ => false

def isFunction : Option (Callable σ) → Bool
  | some (.code _) => true
  | _ => false

/-- The first part that is missing or of the wrong kind. -/
def firstMissing? (d : Draft σ) : Option ActionPart :=
  if !isText d.name? then some .name
  else if !isText d.description? then some .description
  else if !isTable d.jackTypes? then some .jackTypes
  else if !isTable d.propTypes? then some .propTypes
  else if !isFunction d.perform? then some .perform
  else none

end Draft

namespace Proposal

/-- What a value proposes: a mapping is a draft. -/
def ofValue (resolve : FuncRef → List Value → Call σ Value) (v : Value) : Proposal σ :=
  match v.entries? with
  | some es => .draft (Draft.ofEntries resolve es)
  | none => .value v

/-- The descriptor proposed. A draft without a missing part can still fail in the names of its
fields and in its providers. -/
def check (wording : Wording) : Proposal σ → Except Failure (Descriptor σ)
  | .descriptor d => .ok d
  | .value _ => .error (.missingPart .descriptor)
  | .draft d => match d.firstMissing? with
    | some p => .error (.missingPart p)
    | none => d.complete.toExcept wording

end Proposal
end CheckedActions
