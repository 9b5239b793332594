import CheckedActions.Action.Basic

/-!
Plugins. A plugin can offer actions and can observe runs. It is an object, or a class of which no
object has been made yet; the methods of a class cannot be called. The errors that an observer is
told are those that the result of the run will have, and not a copy: what the observer does to them
is done to the result.
-/

namespace CheckedActions

/-- Something offered as an action. -/
inductive Offer (σ : Type) where
  | action (a : Action σ)
  | value (v : Value)

/-- What a plugin answers when it is asked for its actions. -/
inductive Registration (σ : Type) where
  | nothing
  | offers (entries : Keyed (Offer σ))
  | value (v : Value)

/-- The news that an action was run, with its errors, the null value being none. -/
structure Notice where
  action : String
  ok : Bool
  errors : Value

/-- Observes a run. Beside the data of the program it works on the errors that it is told, which lie
in a cell. -/
abbrev Observer (σ : Type) := Notice → Call (Celled σ) Unit

structure PluginClass (σ : Type) where
  name : String
  /-- Makes an object of the class. -/
  construct : Call σ Unit
  offers? : Option (Call σ (Registration σ))
  /-- Whether the method that offers actions is marked as a hook. -/
  offersMarked : Bool
  observer? : Option (Observer σ)
  /-- Whether the method that observes runs is marked as a hook. -/
  observerMarked : Bool

inductive Plugin (σ : Type) where
  | object (c : PluginClass σ)
  | unmade (c : PluginClass σ)

variable {σ : Type}

/-- The actions among offers. -/
def acceptedOffers (entries : Keyed (Offer σ)) : Keyed (Action σ) :=
  entries.filterMap fun
    | (k, .action a) => some (k, a)
    | _ => none

/-- The entries of a value that is offered, none of which is an action. -/
def Offer.entries? : Offer σ → Option (Keyed (Offer σ))
  | action _ => none
  | value v => v.entries?.map fun es => es.map fun (k, x) => (k, .value x)

namespace PluginClass

def hasHooks (c : PluginClass σ) : Bool :=
  (c.offersMarked && c.offers?.isSome) || (c.observerMarked && c.observer?.isSome)

end PluginClass

namespace Plugin

/-- What calling a method of a class without an object fails with. -/
def missingSelf (c : PluginClass σ) (method : String) : Failure :=
  .misused (c.name ++ "." ++ method ++ "() missing 1 required positional argument: 'self'")

/-- The class that the plugin is, if it is one with hooks. -/
def hookedClass? : Plugin σ → Option (PluginClass σ)
  | object _ => none
  | unmade c => if c.hasHooks then some c else none

/-- The plugin's actions, if it offers any, marked or not. -/
def offers? : Plugin σ → Option (Call σ (Registration σ))
  | object c => c.offers?
  | unmade c => c.offers?.map fun _ => throw (missingSelf c "register_actions")

/-- The plugin's observer, if a marked one exists. -/
def observer? : Plugin σ → Option (Observer σ)
  | object c => if c.observerMarked then c.observer? else none
  | unmade c =>
    if c.observerMarked then c.observer?.map fun _ _ => throw (missingSelf c "post_perform")
    else none

end Plugin
end CheckedActions
