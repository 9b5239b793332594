import CheckedActions.Module.Shelf
import CheckedActions.Value.Order

/-!
The registry: actions by name, from plugins first and then from modules. A later action takes the
place of an earlier one under the same name, which is logged. A module that cannot be imported
leaves a warning and stops nothing, unless it cannot be told what kept it from being imported. Names
are texts as a rule; any other key will do, but then the names may have no order.
-/

namespace CheckedActions

structure Registry (σ : Type) where
  plugins : PluginRoster σ
  actions : Keyed (Action σ)
  warnings : List String

namespace Registry

variable {σ : Type}

def logger : String := "jackprop.services.registry"

def ofPlugins (plugins : PluginRoster σ) : Registry σ := ⟨plugins, [], []⟩

def get? (r : Registry σ) (name : Value) : Option (Action σ) := r.actions.get? name

/-- The actions in the order of their names. -/
def sorted (r : Registry σ) : Except Failure (Keyed (Action σ)) := r.actions.sort

def names (r : Registry σ) : Except Failure (List Value) := r.sorted.map Keyed.keys

/-- Registers an action under a name; an empty name stands for the action's own. -/
def register (r : Registry σ) (a : Action σ) (name : Value) : Call σ (Registry σ) := do
  let key := if name.truthy then name else .str a.name
  match r.get? key with
  | some old =>
    if old.number ≠ a.number then
      Call.log .warning logger
        ("Action " ++ key.text ++ " registered twice; keeping the later one")
  | none => pure ()
  return { r with actions := r.actions.put key a }

def registerAll (r : Registry σ) (actions : Keyed (Action σ)) : Call σ (Registry σ) :=
  actions.foldlM (fun r (name, a) => r.register a name) r

/-- Registers the actions of a module. -/
def loadModule (r : Registry σ) (shelf : ModuleShelf σ) (name : String) :
    Call σ (Registry σ × ModuleShelf σ) := do
  let (outcome, shelf) ← shelf.load name
  match outcome with
  | .ok content => return (← r.registerAll content.actions, shelf)
  | .error f =>
    Call.log .warning logger ("Could not import action module " ++ name)
    let text ← Call.ofExcept f.message
    let warning := "Could not import action module " ++ name ++ ": " ++ text
    return ({ r with warnings := r.warnings ++ [warning] }, shelf)

def loadModules (r : Registry σ) (shelf : ModuleShelf σ) (names : List String) :
    Call σ (Registry σ × ModuleShelf σ) :=
  names.foldlM (fun (r, shelf) name => r.loadModule shelf name) (r, shelf)

/-- Registers the actions of all plugins, which are discovered first if wanted and not done yet,
and then those of the modules. -/
def load (r : Registry σ) (shelf : ModuleShelf σ) (names : List String) (discover : Bool) :
    Call σ (Registry σ × ModuleShelf σ) := do
  let plugins ← if discover && !r.plugins.discovered then r.plugins.discover else pure r.plugins
  let r := { r with plugins }
  let r ← r.registerAll (← plugins.collect)
  r.loadModules shelf names

end Registry
end CheckedActions
