import CheckedActions.Plugin.Basic

/-!
The plugins in use, each under a name of its own, oldest first. A plugin that fails to offer its
actions is logged and skipped. Discovery replaces classes that have hooks by objects of them.
-/

namespace CheckedActions

structure PluginRoster (σ : Type) where
  plugins : List (String × Plugin σ)
  /-- Whether discovery has taken place. -/
  discovered : Bool

namespace PluginRoster

variable {σ : Type}

def logger : String := "jackprop.plugins.manager"

def empty : PluginRoster σ := ⟨[], false⟩

def names (r : PluginRoster σ) : List String := r.plugins.map (·.1)

/-- Adds a plugin under a name that is not in use. -/
def add (r : PluginRoster σ) (name : String) (p : Plugin σ) : Except Failure (PluginRoster σ) :=
  if r.names.contains name then .error .nameTaken
  else .ok { r with plugins := r.plugins ++ [(name, p)] }

/-- Makes an object of a class and adds it, without a name under that of the class. -/
def addObject (r : PluginRoster σ) (name? : Option String) (c : PluginClass σ) :
    Call σ (PluginRoster σ) := do
  c.construct
  let name := match name? with
    | some n => if n.isEmpty then c.name else n
    | none => c.name
  let r ← Call.ofExcept (r.add name (.object c))
  Call.log .debug logger ("Registered plugin: " ++ name)
  return r

/-- Adds a class. -/
def addClass (r : PluginRoster σ) (name : String) (c : PluginClass σ) :
    Except Failure (PluginRoster σ) :=
  r.add (if name.isEmpty then c.name else name) (.unmade c)

/-- Logs every offer that is no action. -/
def logSkipped (plugin : String) : Keyed (Offer σ) → Call σ Unit
  | [] => pure ()
  | (_, .action _) :: rest => logSkipped plugin rest
  | (k, .value _) :: rest => do
    Call.log .warning logger
      ("Skipping action " ++ k.quoted ++ " from plugin " ++ plugin ++ ": not an Action")
    logSkipped plugin rest

/-- The actions a plugin offers. -/
def offersOf (name : String) (p : Plugin σ) : Call σ (Keyed (Action σ)) := do
  match p.offers? with
  | none => return []
  | some ask =>
    match ← Call.attempt ask with
    | .error _ =>
      Call.log .warning logger ("Failed to collect actions from plugin " ++ name)
      return []
    | .ok .nothing => return []
    | .ok (.value _) =>
      Call.log .warning logger ("Plugin " ++ name ++ " returned non-dict action registrations")
      return []
    | .ok (.offers entries) =>
      logSkipped name entries
      return acceptedOffers entries

/-- The actions all plugins offer, those of later plugins over those of earlier ones. -/
def collect (r : PluginRoster σ) : Call σ (Keyed (Action σ)) :=
  r.plugins.foldlM (fun actions (name, p) => return actions.overlay (← offersOf name p)) []

/-- Takes out what is under a name. -/
def remove (r : PluginRoster σ) (name : String) : PluginRoster σ :=
  { r with plugins := r.plugins.filter fun e => e.1 ≠ name }

/-- A name of which the plugin was taken out is free. -/
theorem add_remove (r : PluginRoster σ) (name : String) (p : Plugin σ) :
    (r.remove name).add name p =
      .ok { r with plugins := (r.remove name).plugins ++ [(name, p)] } := by
  have hfree : (r.remove name).names.contains name = false := by simp [names, remove]
  unfold add
  rw [hfree]
  rfl

/-- Puts an object in the place of its class. The class is taken out first, and stays out if no
object can be made. -/
def replace (r : PluginRoster σ) (name : String) (c : PluginClass σ) :
    Call σ (PluginRoster σ) := do
  let r := r.remove name
  match ← Call.attempt c.construct with
  | .error _ =>
    Call.log .warning logger ("Failed to instantiate entry-point plugin " ++ name)
    return r
  | .ok _ =>
    let r ← Call.ofExcept (r.add name (.object c))
    Call.log .debug logger ("Instantiated entry-point plugin: " ++ name)
    return r

/-- Replaces a class with hooks, and leaves any other plugin as it is. -/
def settle (r : PluginRoster σ) (name : String) (p : Plugin σ) : Call σ (PluginRoster σ) :=
  match p.hookedClass? with
  | some c => r.replace name c
  | none => pure r

def settleAll (r : PluginRoster σ) (plugins : List (String × Plugin σ)) :
    Call σ (PluginRoster σ) :=
  plugins.foldlM (fun r e => r.settle e.1 e.2) r

/-- Settles the plugins that there are when it begins. -/
def discover (r : PluginRoster σ) : Call σ (PluginRoster σ) := do
  let r ← r.settleAll r.plugins
  return { r with discovered := true }

/-- The observers, the newest first. -/
def observers (r : PluginRoster σ) : List (Observer σ) :=
  r.plugins.reverse.filterMap fun (_, p) => p.observer?

/-- Tells all observers of a run. Each of them is told the errors as the one before it has left
them, and a failing observer keeps the news from those after it. -/
def notify (r : PluginRoster σ) (n : Notice) : Call (Celled σ) Unit :=
  r.observers.forM fun observe => do observe { n with errors := ← Call.readCell }

end PluginRoster
end CheckedActions
