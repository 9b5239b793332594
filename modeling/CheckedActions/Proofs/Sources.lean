import CheckedActions.Proofs.Journal
import CheckedActions.Proofs.Overlay
import CheckedActions.Proofs.Replacement
import CheckedActions.Proofs.Telling
import CheckedActions.Service.Registry

/-!
What a load takes from its sources. Its plugins are asked for their actions in turn, then its
modules are imported in turn, each in the scene that the source before it has left. What they
contribute is entered in that order; a source that fails contributes nothing, and stops none of the
others, unless it is a module that fails with what cannot be told.
-/

namespace CheckedActions

variable {σ : Type}

/-! ### Entries -/

namespace Registry

/-- The entry that registering an action under a name makes. The action's own name stands for one
that a condition takes for false. -/
def entry (e : Value × Action σ) : Value × Action σ :=
  (if e.1.truthy then e.1 else .str e.2.name, e.2)

/-- The registry with entries made one after another. -/
def enter (r : Registry σ) (entries : Keyed (Action σ)) : Registry σ :=
  { r with actions := r.actions.overlay entries }

theorem enter_append (r : Registry σ) (xs ys : Keyed (Action σ)) :
    r.enter (xs ++ ys) = (r.enter xs).enter ys := by
  simp only [enter, Keyed.overlay_append]

/-- The names under which entries put another action in the place of one that is there, as they are
made one after another. -/
def displaced (held : Keyed (Action σ)) : Keyed (Action σ) → List Value
  | [] => []
  | e :: es =>
    (if (held.get? e.1).any fun old => old.number ≠ e.2.number then [e.1] else []) ++
      displaced (held.put e.1 e.2) es

/-- An entry displaces nothing where no other action is. -/
theorem displaced_cons_new {held : Keyed (Action σ)} {e : Value × Action σ}
    (h : ∀ old, held.get? e.1 = some old → old.number = e.2.number) (es : Keyed (Action σ)) :
    displaced held (e :: es) = displaced (held.put e.1 e.2) es := by
  rw [displaced]
  cases hold : held.get? e.1 with
  | none => simp
  | some old => simp [h old hold]

theorem displaced_cons_old {held : Keyed (Action σ)} {e : Value × Action σ} {old : Action σ}
    (hold : held.get? e.1 = some old) (h : old.number ≠ e.2.number) (es : Keyed (Action σ)) :
    displaced held (e :: es) = e.1 :: displaced (held.put e.1 e.2) es := by
  rw [displaced]
  simp [hold, h]

theorem displaced_append (held xs ys : Keyed (Action σ)) :
    displaced held (xs ++ ys) = displaced held xs ++ displaced (held.overlay xs) ys := by
  induction xs generalizing held with
  | nil => rfl
  | cons x xs ih =>
    have hrest := ih (held.put x.1 x.2)
    simp only [List.cons_append, displaced, hrest, List.append_assoc]
    rfl

/-- What the registry reports of an action that is displaced. -/
def displacedText (name : String) : String :=
  "Action " ++ name ++ " registered twice; keeping the later one"

end Registry

namespace Scene

/-- The scene with a report for each name under which an action is displaced. -/
def reporting (s : Scene σ) (names : List Value) : Scene σ :=
  names.foldl
    (fun s k => s.logged .warning Registry.logger (Registry.displacedText k.text)) s

theorem reporting_append (s : Scene σ) (xs ys : List Value) :
    s.reporting (xs ++ ys) = (s.reporting xs).reporting ys := List.foldl_append

theorem alike_reporting (s : Scene σ) (names : List Value) : s.Alike (s.reporting names) := by
  induction names generalizing s with
  | nil => exact .refl s
  | cons k names ih => exact (alike_logged s _ _ _).trans (ih _)

end Scene

namespace Registry

/-- Registering makes an entry, and reports the displacement of another action. -/
theorem runIn_register_eq (r : Registry σ) (a : Action σ) (name : Value) (s : Scene σ) :
    (r.register a name).runIn s =
      (.ok (r.enter [entry (name, a)]), s.reporting (displaced r.actions [entry (name, a)])) := by
  unfold register
  dsimp only
  have hheld : r.get? (if name.truthy then name else .str a.name) =
      r.actions.get? (entry (name, a)).1 := rfl
  rw [hheld]
  cases hold : r.actions.get? (entry (name, a)).1 with
  | none =>
    rw [displaced_cons_new (by simp [hold])]
    rfl
  | some old =>
    by_cases h : old.number = a.number
    · have hsame : ∀ old', r.actions.get? (entry (name, a)).1 = some old' →
          old'.number = a.number := by simp [hold, h]
      rw [displaced_cons_new hsame]
      simp only [h, ne_eq, not_true_eq_false, if_false]
      rfl
    · rw [displaced_cons_old hold h]
      simp only [h, ne_eq, not_false_eq_true, if_true]
      rfl

theorem runIn_registerAll_eq (r : Registry σ) (actions : Keyed (Action σ)) (s : Scene σ) :
    (r.registerAll actions).runIn s =
      (.ok (r.enter (actions.map entry)),
        s.reporting (displaced r.actions (actions.map entry))) := by
  induction actions generalizing r s with
  | nil => rfl
  | cons e actions ih =>
    have hsplit : (e :: actions).map entry = [entry e] ++ actions.map entry := rfl
    rw [hsplit, enter_append, displaced_append, Scene.reporting_append]
    exact (Call.runIn_bind_ok (runIn_register_eq r e.2 e.1 s) _).trans (ih _ _)

/-- Registering makes an entry, and does nothing else but writing to the journal. -/
theorem runIn_register (r : Registry σ) (a : Action σ) (name : Value) (s : Scene σ) :
    ∃ t, (r.register a name).runIn s = (.ok (r.enter [entry (name, a)]), t) ∧ s.Alike t :=
  ⟨_, runIn_register_eq r a name s, s.alike_reporting _⟩

theorem runIn_registerAll (r : Registry σ) (actions : Keyed (Action σ)) (s : Scene σ) :
    ∃ t, (r.registerAll actions).runIn s = (.ok (r.enter (actions.map entry)), t) ∧
      s.Alike t := ⟨_, runIn_registerAll_eq r actions s, s.alike_reporting _⟩

end Registry

/-! ### Plugins -/

/-- The dictionary a plugin answers with when it is asked for its actions. A plugin that cannot be
asked, fails or answers anything else is faulty. -/
def Plugin.answer? (p : Plugin σ) (s : Scene σ) : Option (Keyed (Offer σ)) :=
  match p.offers? with
  | none => none
  | some ask => match (ask.runIn s).1 with
    | .ok (.offers entries) => some entries
    | _ => none

/-- Asking a plugin for its actions: the scene in which it is asked, and the one it leaves. -/
structure Asking (σ : Type) where
  name : String
  plugin : Plugin σ
  before : Scene σ
  after : Scene σ

def Asking.answer? (x : Asking σ) : Option (Keyed (Offer σ)) := x.plugin.answer? x.before

/-- The actions in the dictionaries that plugins answer with. -/
def offered (askings : List (Asking σ)) : Keyed (Action σ) :=
  (askings.filterMap Asking.answer?).flatMap acceptedOffers

theorem offered_cons (x : Asking σ) (askings : List (Asking σ)) :
    offered (x :: askings) = acceptedOffers (x.answer?.getD []) ++ offered askings := by
  unfold offered
  cases h : x.answer? with
  | none => simp [h, acceptedOffers]
  | some entries => simp [h]

namespace PluginRoster

theorem returns_logSkipped (plugin : String) (entries : Keyed (Offer σ)) :
    (logSkipped plugin entries).Returns := by
  induction entries with
  | nil => exact Call.returns_pure ()
  | cons e entries ih =>
    rcases e with ⟨k, _ | _⟩
    · exact ih
    · exact (Call.returns_log _ _ _).bind fun _ => ih

/-- Whatever a plugin answers, asking it returns the actions in its answer. -/
theorem runIn_offersOf (name : String) (p : Plugin σ) (s : Scene σ) :
    ∃ t, (offersOf name p).runIn s = (.ok (acceptedOffers ((p.answer? s).getD [])), t) := by
  unfold offersOf Plugin.answer?
  cases p.offers? with
  | none => exact ⟨s, rfl⟩
  | some ask =>
    dsimp only
    rw [Call.runIn_bind, Call.runIn_attempt]
    rcases ask.runIn s with ⟨f | registration, u⟩
    · exact ⟨_, rfl⟩
    · cases registration with
      | nothing => exact ⟨u, rfl⟩
      | value v => exact ⟨_, rfl⟩
      | offers entries =>
        obtain ⟨_, t, ht⟩ := returns_logSkipped name entries u
        exact ⟨t, Call.runIn_bind_ok ht _⟩

end PluginRoster

/-- Plugins are asked in turn. -/
inductive Asked : List (String × Plugin σ) → Scene σ → List (Asking σ) → Scene σ → Prop
  | done (s : Scene σ) : Asked [] s [] s
  | next {name : String} {p : Plugin σ} {plugins : List (String × Plugin σ)} {s t u : Scene σ}
      {actions : Keyed (Action σ)} {askings : List (Asking σ)}
      (h : (PluginRoster.offersOf name p).runIn s = (.ok actions, t))
      (rest : Asked plugins t askings u) :
      Asked ((name, p) :: plugins) s (⟨name, p, s, t⟩ :: askings) u

theorem exists_asked (plugins : List (String × Plugin σ)) (s : Scene σ) :
    ∃ askings t, Asked plugins s askings t := by
  induction plugins generalizing s with
  | nil => exact ⟨[], s, .done s⟩
  | cons e plugins ih =>
    obtain ⟨u, hu⟩ := PluginRoster.runIn_offersOf e.1 e.2 s
    obtain ⟨askings, t, hasked⟩ := ih u
    exact ⟨_, t, .next hu hasked⟩

/-- The plugins of some askings, under their names. -/
def askedPlugins (askings : List (Asking σ)) : List (String × Plugin σ) :=
  askings.map fun x => (x.name, x.plugin)

theorem Asked.plugins {plugins : List (String × Plugin σ)} {s t : Scene σ}
    {askings : List (Asking σ)} (h : Asked plugins s askings t) :
    askedPlugins askings = plugins := by
  induction h with
  | done s => rfl
  | next hstep rest ih => rw [askedPlugins, List.map_cons, ← ih, askedPlugins]

theorem Asked.runIn_fold {plugins : List (String × Plugin σ)} {s t : Scene σ}
    {askings : List (Asking σ)} (h : Asked plugins s askings t) (actions : Keyed (Action σ)) :
    (plugins.foldlM (fun (actions : Keyed (Action σ)) (name, p) =>
        return actions.overlay (← PluginRoster.offersOf name p)) actions : Call σ _).runIn s =
      (.ok (actions.overlay (offered askings)), t) := by
  induction h generalizing actions with
  | done s => rfl
  | @next name p plugins s t u offers askings hstep rest ih =>
    obtain ⟨t', ht'⟩ := PluginRoster.runIn_offersOf name p s
    rw [hstep] at ht'
    cases ht'
    rw [offered_cons, Keyed.overlay_append, List.foldlM_cons]
    exact (Call.runIn_bind_ok (Call.runIn_bind_ok hstep _) _).trans (ih _)

/-- The plugins' actions are those in the dictionaries they answer with, later ones over earlier
ones. -/
theorem Asked.runIn_collect {r : PluginRoster σ} {s t : Scene σ} {askings : List (Asking σ)}
    (h : Asked r.plugins s askings t) :
    r.collect.runIn s = (.ok (.ofPairs (offered askings)), t) := h.runIn_fold []

namespace PluginRoster

theorem returns_settle (r : PluginRoster σ) (name : String) (p : Plugin σ) :
    (r.settle name p).Returns := by
  cases hc : p.hookedClass? with
  | none =>
    rw [settle_of_none hc]
    exact Call.returns_pure r
  | some c =>
    rw [settle_of_some hc]
    exact fun s => ⟨_, _, r.runIn_replace name c s⟩

theorem returns_discover (r : PluginRoster σ) : r.discover.Returns :=
  (Call.returns_foldlM (fun r e => r.returns_settle e.1 e.2) r.plugins r).bind
    fun _ => Call.returns_pure _

end PluginRoster

/-! ### Modules -/

/-- Importing a module: the shelf and the scene before, how it ends, and the shelf and the scene
after. -/
structure Importing (σ : Type) where
  name : String
  shelf : ModuleShelf σ
  before : Scene σ
  outcome : Except Failure (ModuleContent σ)
  left : ModuleShelf σ
  after : Scene σ

namespace Importing

/-- The import does not fail with what cannot be told. -/
def isTold (x : Importing σ) : Bool :=
  match x.outcome with
  | .error f => f.isTellable
  | .ok _ => true

/-- The warning that a failing import leaves. -/
def warning? (x : Importing σ) : Option String :=
  match x.outcome with
  | .error f => some ("Could not import action module " ++ x.name ++ ": " ++ f.wording)
  | .ok _ => none

/-- The module, if it could be imported. -/
def content? (x : Importing σ) : Option (ModuleContent σ) := x.outcome.toOption

end Importing

/-- The entries made of the modules that could be imported. -/
def entered (importings : List (Importing σ)) : Keyed (Action σ) :=
  (importings.filterMap Importing.content?).flatMap fun m => m.actions.map Registry.entry

namespace ModuleShelf

theorem returns_runAll (s : ModuleShelf σ) (names : List String) : (s.runAll names).Returns := by
  induction names generalizing s with
  | nil => exact Call.returns_pure _
  | cons name names ih =>
    unfold runAll
    split
    · exact ih s
    · cases s.find name with
      | error f => exact Call.returns_pure _
      | ok run =>
        refine (Call.returns_attempt run).bind fun outcome => ?_
        cases outcome with
        | error f => exact Call.returns_pure _
        | ok content => exact ih (s.keep name content)

theorem returns_load (s : ModuleShelf σ) (name : String) : (s.load name).Returns := by
  unfold load
  split
  · exact Call.returns_pure _
  · split
    · exact Call.returns_pure _
    · exact (returns_runAll s _).bind fun _ => Call.returns_pure _

end ModuleShelf

namespace Registry

/-- The registry after modules have been imported. -/
def withImports (r : Registry σ) (importings : List (Importing σ)) : Registry σ :=
  { r.enter (entered importings) with
    warnings := r.warnings ++ importings.filterMap Importing.warning? }

theorem withImports_nil (r : Registry σ) : r.withImports [] = r := by
  simp [withImports, entered, enter, Keyed.overlay]

theorem withImports_append (r : Registry σ) (xs ys : List (Importing σ)) :
    r.withImports (xs ++ ys) = (r.withImports xs).withImports ys := by
  simp only [withImports, entered, enter, List.filterMap_append, List.flatMap_append,
    Keyed.overlay_append, List.append_assoc]

/-- Loading a module that can be imported registers its actions. -/
theorem runIn_loadModule_ok {shelf left : ModuleShelf σ} {name : String}
    {content : ModuleContent σ} {s t : Scene σ}
    (h : (shelf.load name).runIn s = (.ok (.ok content, left), t)) (r : Registry σ) :
    (r.loadModule shelf name).runIn s =
      (.ok (r.enter (content.actions.map entry), left),
        t.reporting (displaced r.actions (content.actions.map entry))) :=
  (Call.runIn_bind_ok h _).trans (Call.runIn_bind_ok (runIn_registerAll_eq r content.actions t) _)

/-- Loading any other module leaves a record, and a warning if the failure can be told. -/
theorem runIn_loadModule_error {shelf left : ModuleShelf σ} {name : String} {f : Failure}
    {s t : Scene σ} (h : (shelf.load name).runIn s = (.ok (.error f, left), t)) (r : Registry σ) :
    (r.loadModule shelf name).runIn s =
      (f.message.map fun text =>
        ({ r with
            warnings := r.warnings ++ ["Could not import action module " ++ name ++ ": " ++ text] },
          left),
        t.logged .warning logger ("Could not import action module " ++ name)) := by
  refine (Call.runIn_bind_ok h _).trans ?_
  cases hf : f.message with
  | error g =>
    simp only [hf]
    rfl
  | ok text =>
    simp only [hf]
    rfl

/-- What loading a module leaves: its entries or a warning are made if all can be told. -/
theorem runIn_loadModule (r : Registry σ) (shelf : ModuleShelf σ) (name : String) (s : Scene σ) :
    ∃ outcome left t u, (shelf.load name).runIn s = (.ok (outcome, left), t) ∧ t.Alike u ∧
      (r.loadModule shelf name).runIn s =
        (if (Importing.mk name shelf s outcome left u).isTold then
            .ok (r.withImports [⟨name, shelf, s, outcome, left, u⟩], left)
          else .error .tooLongToWrite, u) := by
  obtain ⟨⟨outcome, left⟩, t, hload⟩ := ModuleShelf.returns_load shelf name s
  cases outcome with
  | error f =>
    refine ⟨.error f, left, t,
      t.logged .warning logger ("Could not import action module " ++ name), hload,
      Scene.alike_logged t _ _ _, (runIn_loadModule_error hload r).trans ?_⟩
    by_cases ht : f.isTellable
    · rw [Failure.message_of_tellable ht]
      have hentered : entered [Importing.mk name shelf s (.error f) left
          (t.logged .warning logger ("Could not import action module " ++ name))] = [] := rfl
      simp [Importing.isTold, ht, withImports, hentered, Importing.warning?, Except.map, enter,
        Keyed.overlay]
    · rw [Failure.message_of_not_tellable ht]
      simp [Importing.isTold, ht, Except.map]
  | ok content =>
    have hrun := runIn_loadModule_ok hload r
    refine ⟨.ok content, left, t, _, hload,
      t.alike_reporting (displaced r.actions (content.actions.map entry)), hrun.trans ?_⟩
    simp [Importing.isTold, withImports, entered, Importing.content?, Importing.warning?,
      Except.toOption, enter]

/-- A module is loaded if all can be told of its import, and then its entries or a warning are
made. -/
theorem loadModule_eq_ok {r middle : Registry σ} {shelf left left' : ModuleShelf σ} {name : String}
    {s t u : Scene σ} {outcome : Except Failure (ModuleContent σ)}
    (himport : (shelf.load name).runIn s = (.ok (outcome, left), t))
    (h : (r.loadModule shelf name).runIn s = (.ok (middle, left'), u)) :
    (Importing.mk name shelf s outcome left u).isTold ∧ t.Alike u ∧ left' = left ∧
      middle = r.withImports [⟨name, shelf, s, outcome, left, u⟩] := by
  obtain ⟨outcome', left'', t', u', himport', halike, hrun⟩ := r.runIn_loadModule shelf name s
  rw [himport] at himport'
  cases himport'
  rw [h] at hrun
  split at hrun
  · rename_i htold
    cases hrun
    exact ⟨htold, halike, rfl, rfl⟩
  · cases hrun

theorem loadModule_eq_error {r : Registry σ} {shelf left : ModuleShelf σ} {name : String}
    {s t u : Scene σ} {outcome : Except Failure (ModuleContent σ)} {f : Failure}
    (himport : (shelf.load name).runIn s = (.ok (outcome, left), t))
    (h : (r.loadModule shelf name).runIn s = (.error f, u)) :
    (Importing.mk name shelf s outcome left u).isTold = false ∧ f = .tooLongToWrite := by
  obtain ⟨outcome', left', t', u', himport', -, hrun⟩ := r.runIn_loadModule shelf name s
  rw [himport] at himport'
  cases himport'
  rw [h] at hrun
  split at hrun
  · cases hrun
  · rename_i htold
    cases hrun
    exact ⟨by simpa using htold, rfl⟩

end Registry

/-- The modules of the given names are imported in turn and loaded into a registry, up to the end or
to one that cannot be loaded. -/
inductive Imported : List String → Registry σ × ModuleShelf σ → Scene σ → List (Importing σ) →
    Except Failure (Registry σ × ModuleShelf σ) → Scene σ → Prop
  | done (start : Registry σ × ModuleShelf σ) (s : Scene σ) : Imported [] start s [] (.ok start) s
  | halt {name : String} {names : List String} {r : Registry σ} {shelf left : ModuleShelf σ}
      {s t u : Scene σ} {outcome : Except Failure (ModuleContent σ)} {f : Failure}
      (himport : (shelf.load name).runIn s = (.ok (outcome, left), t))
      (hload : (r.loadModule shelf name).runIn s = (.error f, u)) :
      Imported (name :: names) (r, shelf) s [⟨name, shelf, s, outcome, left, u⟩] (.error f) u
  | next {name : String} {names : List String} {r middle : Registry σ}
      {shelf left : ModuleShelf σ} {s t u v : Scene σ}
      {outcome : Except Failure (ModuleContent σ)}
      {ended : Except Failure (Registry σ × ModuleShelf σ)} {importings : List (Importing σ)}
      (himport : (shelf.load name).runIn s = (.ok (outcome, left), t))
      (hload : (r.loadModule shelf name).runIn s = (.ok (middle, left), u))
      (rest : Imported names (middle, left) u importings ended v) :
      Imported (name :: names) (r, shelf) s (⟨name, shelf, s, outcome, left, u⟩ :: importings)
        ended v

theorem exists_imported (names : List String) (start : Registry σ × ModuleShelf σ) (s : Scene σ) :
    ∃ importings ended t, Imported names start s importings ended t := by
  induction names generalizing start s with
  | nil => exact ⟨[], .ok start, s, .done start s⟩
  | cons name names ih =>
    obtain ⟨outcome, left, _, u, himport, -, hload⟩ := start.1.runIn_loadModule start.2 name s
    split at hload
    · obtain ⟨importings, ended, t, himported⟩ := ih _ u
      exact ⟨_, ended, t, .next himport hload himported⟩
    · exact ⟨_, _, u, .halt himport hload⟩

section Imported

variable {names : List String} {start last : Registry σ × ModuleShelf σ} {s t : Scene σ}
  {importings : List (Importing σ)} {ended : Except Failure (Registry σ × ModuleShelf σ)}

theorem Imported.runIn (h : Imported names start s importings ended t) :
    (start.1.loadModules start.2 names).runIn s = (ended, t) := by
  induction h with
  | done start s => rfl
  | halt himport hload => exact Call.runIn_bind_error hload _
  | next himport hload rest ih => exact (Call.runIn_bind_ok hload _).trans ih

/-- Importing modules ends well exactly if all can be told of those that are imported. -/
theorem Imported.isOk_iff (h : Imported names start s importings ended t) :
    ended.isOk ↔ ∀ x ∈ importings, x.isTold := by
  induction h with
  | done start s => exact iff_of_true rfl (by simp)
  | halt himport hload =>
    have htold := (Registry.loadModule_eq_error himport hload).1
    exact iff_of_false nofun fun hall => by
      rw [hall _ List.mem_cons_self] at htold
      cases htold
  | next himport hload rest ih =>
    rw [ih, List.forall_mem_cons, and_iff_right (Registry.loadModule_eq_ok himport hload).1]

theorem Imported.failure (h : Imported names start s importings ended t) {f : Failure}
    (hf : ended = .error f) : f = .tooLongToWrite := by
  induction h with
  | done start s => cases hf
  | halt himport hload =>
    cases hf
    exact (Registry.loadModule_eq_error himport hload).2
  | next himport hload rest ih => exact ih hf

/-- Modules are imported in their order, and all of them if that ends well. -/
theorem Imported.names_eq (h : Imported names start s importings ended t) :
    importings.map (·.name) <+: names ∧ (ended.isOk → importings.map (·.name) = names) := by
  induction h with
  | done start s => exact ⟨List.nil_prefix, fun _ => rfl⟩
  | @halt name names => exact ⟨⟨names, rfl⟩, nofun⟩
  | next himport hload rest ih =>
    exact ⟨(List.prefix_cons_inj _).2 ih.1, fun hok => congrArg _ (ih.2 hok)⟩

theorem Imported.registry (h : Imported names start s importings ended t)
    (hended : ended = .ok last) : last.1 = start.1.withImports importings := by
  induction h generalizing last with
  | done start s =>
    cases hended
    exact (Registry.withImports_nil start.1).symm
  | halt himport hload => cases hended
  | next himport hload rest ih =>
    obtain ⟨-, -, -, rfl⟩ := Registry.loadModule_eq_ok himport hload
    rw [ih hended, ← Registry.withImports_append]
    rfl

end Imported

/-! ### Loads -/

/-- A load without discovery: its plugins are asked, what they offer is entered, and its modules are
imported. -/
inductive Loads (r : Registry σ) (shelf : ModuleShelf σ) (names : List String) (s : Scene σ)
    (askings : List (Asking σ)) (importings : List (Importing σ))
    (ended : Except Failure (Registry σ × ModuleShelf σ)) (t : Scene σ) : Prop
  | intro {filled : Registry σ} {u v : Scene σ} (hasked : Asked r.plugins.plugins s askings u)
      (hfilled : (r.registerAll (.ofPairs (offered askings))).runIn u = (.ok filled, v))
      (himported : Imported names (filled, shelf) v importings ended t) :
      Loads r shelf names s askings importings ended t

/-- Every load without discovery is one of these, whatever its sources do. -/
theorem exists_loads (r : Registry σ) (shelf : ModuleShelf σ) (names : List String)
    (s : Scene σ) :
    ∃ askings importings ended t, Loads r shelf names s askings importings ended t := by
  obtain ⟨askings, u, hasked⟩ := exists_asked r.plugins.plugins s
  obtain ⟨v, hfilled, -⟩ := r.runIn_registerAll (.ofPairs (offered askings)) u
  obtain ⟨importings, ended, t, himported⟩ := exists_imported names (_, shelf) v
  exact ⟨askings, importings, ended, t, .intro hasked hfilled himported⟩

section Loads

variable {r : Registry σ} {shelf : ModuleShelf σ} {names : List String} {s t : Scene σ}
  {askings : List (Asking σ)} {importings : List (Importing σ)}
  {ended : Except Failure (Registry σ × ModuleShelf σ)} {last : Registry σ × ModuleShelf σ}

theorem Loads.runIn (h : Loads r shelf names s askings importings ended t) :
    (r.load shelf names false).runIn s = (ended, t) := by
  obtain ⟨hasked, hfilled, himported⟩ := h
  refine (Call.runIn_bind_ok hasked.runIn_collect _).trans ?_
  exact (Call.runIn_bind_ok hfilled _).trans himported.runIn

theorem Loads.registry (h : Loads r shelf names s askings importings (.ok last) t) :
    last.1 = (r.enter ((Keyed.ofPairs (offered askings)).map Registry.entry)).withImports
      importings := by
  obtain ⟨hasked, hfilled, himported⟩ := h
  rename_i filled u v
  obtain ⟨v', hv', -⟩ := r.runIn_registerAll (.ofPairs (offered askings)) u
  rw [hfilled] at hv'
  cases hv'
  exact himported.registry rfl

/-- The entries of a load: first what its plugins offer, one action for each name, and then what its
modules export. -/
def loadEntries (askings : List (Asking σ)) (importings : List (Importing σ)) :
    Keyed (Action σ) :=
  (Keyed.ofPairs (offered askings)).map Registry.entry ++ entered importings

theorem Loads.actions (h : Loads r shelf names s askings importings (.ok last) t) :
    last.1.actions = r.actions.overlay (loadEntries askings importings) := by
  rw [h.registry, loadEntries, Keyed.overlay_append]
  rfl

theorem Loads.warnings (h : Loads r shelf names s askings importings (.ok last) t) :
    last.1.warnings = r.warnings ++ importings.filterMap Importing.warning? := by
  rw [h.registry]
  rfl

theorem Loads.plugins_eq (h : Loads r shelf names s askings importings ended t) :
    askedPlugins askings = r.plugins.plugins := by
  obtain ⟨hasked, -, -⟩ := h
  exact hasked.plugins

theorem Loads.names_eq (h : Loads r shelf names s askings importings ended t) :
    importings.map (·.name) <+: names ∧ (ended.isOk → importings.map (·.name) = names) := by
  obtain ⟨-, -, himported⟩ := h
  exact himported.names_eq

/-- A load returns exactly if all can be told of the modules that it imports. -/
theorem Loads.isOk_iff (h : Loads r shelf names s askings importings ended t) :
    ended.isOk ↔ ∀ x ∈ importings, x.isTold := by
  obtain ⟨-, -, himported⟩ := h
  exact himported.isOk_iff

theorem Loads.failure (h : Loads r shelf names s askings importings ended t) {f : Failure}
    (hf : ended = .error f) : f = .tooLongToWrite := by
  obtain ⟨-, -, himported⟩ := h
  exact himported.failure hf

end Loads

/-! ### Discovery -/

namespace Registry

/-- The plugins whose actions a load collects, which can have to be discovered first. -/
def ready (r : Registry σ) (discover : Bool) : Call σ (PluginRoster σ) :=
  if discover && !r.plugins.discovered then r.plugins.discover else pure r.plugins

/-- A load is one without discovery from the plugins that are ready then. -/
theorem load_eq (r : Registry σ) (shelf : ModuleShelf σ) (names : List String)
    (discover : Bool) : r.load shelf names discover = (do
      let plugins ← r.ready discover
      ({ r with plugins } : Registry σ).load shelf names false) := by
  unfold load ready
  split <;> rfl

theorem returns_ready (r : Registry σ) (discover : Bool) : (r.ready discover).Returns := by
  unfold ready
  split
  · exact PluginRoster.returns_discover r.plugins
  · exact Call.returns_pure r.plugins

end Registry
end CheckedActions
