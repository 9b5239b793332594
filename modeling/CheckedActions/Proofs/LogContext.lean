import CheckedActions.Cli.Program
import CheckedActions.Proofs.Conduct
import CheckedActions.Proofs.Endings
import CheckedActions.Proofs.Frames

/-!
The log context. A run binds the name of its action, and a command binds its own name; either name
has its former value back afterwards, whatever happens in between. If the code of plugins, modules
and actions leaves the context as it is, so do runs and programs, however they end. If that code
leaves the bound name as it is, every record of a run has the name of the action, and every record
of a program has the name of the command.
-/

namespace CheckedActions

variable {σ : Type}

/-! ### Code from outside -/

section Outside

variable (F : Frame σ)

def Offer.Keeps : Offer σ → Prop
  | action a => a.Keeps F
  | value _ => True

def Registration.Keeps : Registration σ → Prop
  | offers entries => ∀ e ∈ entries, e.2.Keeps F
  | nothing => True
  | value _ => True

/-- The methods of a plugin keep the frame, and so do the actions that it offers. -/
structure PluginClass.Keeps (c : PluginClass σ) : Prop where
  construct : c.construct.Keeps F
  offers : ∀ ask ∈ c.offers?, Call.Framed F ask (Registration.Keeps F)
  observer : ∀ observe ∈ c.observer?, ∀ notice, Call.Keeps F.celled (observe notice)

def PluginRoster.Keeps (r : PluginRoster σ) : Prop := ∀ e ∈ r.plugins, e.2.origin.Keeps F

structure ModuleContent.Keeps (m : ModuleContent σ) : Prop where
  attributes : ∀ e ∈ m.attributes, e.2.Keeps F
  exports : ∀ entries ∈ m.exports?, ∀ e ∈ entries, e.2.Keeps F

/-- Running a module keeps the frame, and so do the actions that it defines. -/
structure ModuleShelf.Keeps (shelf : ModuleShelf σ) : Prop where
  sources : ∀ e ∈ shelf.sources, e.2.Framed F (ModuleContent.Keeps F)
  loaded : ∀ e ∈ shelf.loaded, e.2.Keeps F

/-- The actions of a registry keep the frame, and so do the observers that are told of runs. -/
structure Registry.Keeps (r : Registry σ) : Prop where
  observers : ∀ e ∈ r.plugins.plugins, ∀ observe ∈ e.2.observer?, ∀ notice,
    Call.Keeps F.celled (observe notice)
  actions : ∀ e ∈ r.actions, e.2.Keeps F

end Outside

variable {F : Frame σ}

theorem Call.conduct_keeps : Call.Conduct (fun {α : Type} (c : Call σ α) => c.Keeps F) where
  pure _ := framed_pure trivial
  bind hc hk := hc.bind fun a _ => hk a
  attempt hc := hc.attempt.mono fun _ _ => trivial
  log level event := keeps_log level _ event

theorem keeps_acceptedOffers {entries : Keyed (Offer σ)} (h : ∀ e ∈ entries, e.2.Keeps F) :
    ∀ e ∈ acceptedOffers entries, e.2.Keeps F := by
  intro e he
  obtain ⟨⟨k, offer⟩, hoffer, hsome⟩ := List.mem_filterMap.1 he
  cases offer with
  | value v => nomatch hsome
  | action a =>
    cases hsome
    exact h _ hoffer

/-! ### Plugins -/

theorem Plugin.framed_offers {p : Plugin σ} (h : p.origin.Keeps F)
    {ask : Call σ (Registration σ)} (hask : p.offers? = some ask) :
    ask.Framed F (Registration.Keeps F) := by
  cases p with
  | object c => exact h.offers ask hask
  | unmade c =>
    obtain ⟨_, -, rfl⟩ := Option.map_eq_some_iff.1 hask
    exact Call.framed_throw _

theorem Plugin.keeps_observer {p : Plugin σ} (h : p.origin.Keeps F)
    {observe : Observer σ} (hobserve : p.observer? = some observe) (notice : Notice) :
    (observe notice).Keeps F.celled := by
  cases p with
  | object c =>
    obtain ⟨-, hobserve⟩ := Option.ite_none_right_eq_some.1 hobserve
    exact h.observer observe hobserve notice
  | unmade c =>
    obtain ⟨-, hobserve⟩ := Option.ite_none_right_eq_some.1 hobserve
    obtain ⟨_, -, rfl⟩ := Option.map_eq_some_iff.1 hobserve
    exact Call.framed_throw _

namespace PluginRoster

theorem framed_offersOf (name : String) {p : Plugin σ} (h : p.origin.Keeps F) :
    (offersOf name p).Framed F fun actions => ∀ e ∈ actions, e.2.Keeps F := by
  have hnone : (pure [] : Call σ (Keyed (Action σ))).Framed F
      fun actions => ∀ e ∈ actions, e.2.Keeps F := Call.framed_pure (by simp)
  unfold offersOf
  cases hask : p.offers? with
  | none => exact hnone
  | some ask =>
    refine (Plugin.framed_offers h hask).attempt.bind fun outcome hanswer => ?_
    rcases outcome with f | _ | entries | v
    · exact (Call.keeps_log _ _ _).bind fun _ _ => hnone
    · exact hnone
    · have hlog : (logSkipped name entries).Keeps F :=
        conduct_logSkipped Call.conduct_keeps name entries
      exact hlog.bind fun _ _ => Call.framed_pure (keeps_acceptedOffers (hanswer _ rfl))
    · exact (Call.keeps_log _ _ _).bind fun _ _ => hnone

theorem framed_collect {r : PluginRoster σ} (h : r.Keeps F) :
    r.collect.Framed F fun actions => ∀ e ∈ actions, e.2.Keeps F := by
  refine Call.framed_foldlM (fun actions hactions e he => ?_) (by simp)
  exact (framed_offersOf e.1 (h e he)).bind fun offers hoffers =>
    Call.framed_pure (Keyed.forall_mem_overlay hactions hoffers)

/-- Discovery makes objects of the classes that are there. -/
theorem framed_discover {r : PluginRoster σ} (h : r.Keeps F) : r.discover.Framed F (Keeps F) := by
  have hkeeps : r.discover.Keeps F :=
    conduct_discover Call.conduct_keeps fun e he => (h e he).construct
  intro s
  refine ⟨(hkeeps s).1, fun after hafter e he => ?_⟩
  obtain ⟨d, hd, horigin⟩ := origin_discover (Prod.ext hafter rfl) he
  exact horigin ▸ h d hd

end PluginRoster

/-! ### Modules -/

namespace ModuleContent

theorem keeps_empty : (empty : ModuleContent σ).Keeps F := ⟨by simp [empty], nofun⟩

theorem Keeps.bindInner {m : ModuleContent σ} (h : m.Keeps F) (name : String) :
    (m.bindInner name).Keeps F := by
  constructor
  · intro e he
    rcases mem_putNamed he with he | rfl
    · exact h.attributes e he
    · trivial
  · intro entries hentries
    obtain ⟨-, hentries⟩ := Option.ite_none_left_eq_some.1 hentries
    exact h.exports entries hentries

theorem Keeps.exportTable {m : ModuleContent σ} (h : m.Keeps F) {entries : Keyed (Offer σ)}
    (hentries : m.exportTable? = some entries) : ∀ e ∈ entries, e.2.Keeps F := by
  rcases Option.or_eq_some_iff.1 hentries with hexports | ⟨-, hattribute⟩
  · exact h.exports entries hexports
  · obtain ⟨offer, -, hoffer⟩ := Option.bind_eq_some_iff.1 hattribute
    cases offer with
    | action a => nomatch hoffer
    | value v =>
      -- The entries of a value are no actions.
      obtain ⟨es, -, rfl⟩ := Option.map_eq_some_iff.1 hoffer
      intro e he
      obtain ⟨d, -, rfl⟩ := List.mem_map.1 he
      trivial

theorem Keeps.actions {m : ModuleContent σ} (h : m.Keeps F) : ∀ e ∈ m.actions, e.2.Keeps F := by
  unfold ModuleContent.actions
  cases htable : m.exportTable? with
  | some entries => exact keeps_acceptedOffers (h.exportTable htable)
  | none =>
    refine Keyed.forall_mem_overlay (by simp) fun e he => ?_
    obtain ⟨⟨k, offer⟩, hoffer, hsome⟩ := List.mem_filterMap.1 he
    cases offer with
    | value v => nomatch hsome
    | action a =>
      cases hsome
      exact h.attributes _ hoffer

end ModuleContent

namespace ModuleShelf

variable {shelf : ModuleShelf σ}

theorem Keeps.keep (h : shelf.Keeps F) (name : String) {content : ModuleContent σ}
    (hcontent : content.Keeps F) : (shelf.keep name content).Keeps F := by
  refine ⟨h.sources, List.forall_mem_append.2 ⟨?_, by simpa using hcontent⟩⟩
  intro e he
  obtain ⟨d, hd, rfl⟩ := List.mem_map.1 he
  dsimp only
  split
  · exact (h.loaded d hd).bindInner _
  · exact h.loaded d hd

theorem Keeps.find (h : shelf.Keeps F) {name : String} {run : Call σ (ModuleContent σ)}
    (hrun : shelf.find name = .ok run) : run.Framed F (ModuleContent.Keeps F) := by
  have hsource := source?_of_find hrun
  unfold source? at hsource
  split at hsource
  · rename_i found hfound
    cases hsource
    obtain ⟨before, after, hsources, -⟩ := List.lookup_eq_some_iff.1 hfound
    have hmem : (name, run) ∈ shelf.sources := by simp [hsources]
    exact h.sources _ hmem
  · obtain ⟨-, hsource⟩ := Option.ite_none_right_eq_some.1 hsource
    cases hsource
    exact Call.framed_pure ModuleContent.keeps_empty

theorem Keeps.lookup (h : shelf.Keeps F) (name : String) :
    ((shelf.loaded.lookup name).getD .empty).Keeps F := by
  cases hlookup : shelf.loaded.lookup name with
  | none => exact ModuleContent.keeps_empty
  | some m =>
    obtain ⟨before, after, hloaded, -⟩ := List.lookup_eq_some_iff.1 hlookup
    have hmem : (name, m) ∈ shelf.loaded := by simp [hloaded]
    exact h.loaded _ hmem

theorem framed_runAll (h : shelf.Keeps F) (names : List String) :
    (shelf.runAll names).Framed F fun ran => ran.2.Keeps F := by
  induction names generalizing shelf with
  | nil => exact Call.framed_pure h
  | cons name names ih =>
    unfold runAll
    split
    · exact ih h
    · cases hfind : shelf.find name with
      | error f => exact Call.framed_pure h
      | ok run =>
        refine (h.find hfind).attempt.bind fun outcome hcontent => ?_
        cases outcome with
        | error f => exact Call.framed_pure h
        | ok content => exact ih (h.keep name (hcontent content rfl))

theorem framed_load (h : shelf.Keeps F) (name : String) :
    (shelf.load name).Framed F fun loaded =>
      (∀ m, loaded.1 = .ok m → m.Keeps F) ∧ loaded.2.Keeps F := by
  unfold load
  split
  · exact Call.framed_pure ⟨nofun, h⟩
  · split
    · exact Call.framed_pure ⟨nofun, h⟩
    · refine (framed_runAll h _).bind fun ran hran => Call.framed_pure ⟨fun m hm => ?_, hran⟩
      obtain ⟨_, -, rfl⟩ := map_eq_ok_iff.1 hm
      exact hran.lookup name

end ModuleShelf

/-! ### The registry -/

namespace Registry

theorem framed_register {r : Registry σ} (h : r.Keeps F) {a : Action σ} (ha : a.Keeps F)
    (name : Value) : (r.register a name).Framed F (Keeps F) := by
  have hentered : ∀ k, Registry.Keeps F { r with actions := r.actions.overlay [(k, a)] } :=
    fun k => ⟨h.observers, Keyed.forall_mem_overlay h.actions (by simpa using ha)⟩
  unfold register
  dsimp only
  split
  · split
    · exact (Call.keeps_log _ _ _).bind fun _ _ => Call.framed_pure (hentered _)
    · exact Call.framed_pure (hentered _)
  · exact Call.framed_pure (hentered _)

theorem framed_registerAll {r : Registry σ} (h : r.Keeps F) {actions : Keyed (Action σ)}
    (hactions : ∀ e ∈ actions, e.2.Keeps F) : (r.registerAll actions).Framed F (Keeps F) :=
  Call.framed_foldlM (fun _ hr e he => framed_register hr (hactions e he) e.1) h

theorem framed_loadModule {r : Registry σ} (h : r.Keeps F) {shelf : ModuleShelf σ}
    (hshelf : shelf.Keeps F) (name : String) :
    (r.loadModule shelf name).Framed F fun loaded => loaded.1.Keeps F ∧ loaded.2.Keeps F := by
  refine (ModuleShelf.framed_load hshelf name).bind fun loaded hloaded => ?_
  obtain ⟨outcome, left⟩ := loaded
  obtain ⟨hcontent, hleft⟩ := hloaded
  cases outcome with
  | ok content =>
    exact (framed_registerAll h (hcontent content rfl).actions).bind fun r hr =>
      Call.framed_pure ⟨hr, hleft⟩
  | error f =>
    have htext : (Call.ofExcept f.message : Call σ String).Keeps F := Call.keeps_ofExcept _
    exact (Call.keeps_log _ _ _).bind fun _ _ => htext.bind fun _ _ =>
      Call.framed_pure ⟨⟨h.observers, h.actions⟩, hleft⟩

/-- A registry without actions gets actions and observers that keep the frame, if plugins and
modules keep it. -/
theorem framed_load {roster : PluginRoster σ} (h : roster.Keeps F) {shelf : ModuleShelf σ}
    (hshelf : shelf.Keeps F) (names : List String) (discover : Bool) :
    ((ofPlugins roster).load shelf names discover).Framed F fun loaded => loaded.1.Keeps F := by
  have hrest : ∀ plugins : PluginRoster σ, plugins.Keeps F →
      (do
        let r ← (ofPlugins plugins).registerAll (← plugins.collect)
        r.loadModules shelf names).Framed F fun loaded => loaded.1.Keeps F := by
    intro plugins hplugins
    have hasked : (ofPlugins plugins).Keeps F :=
      ⟨fun e he _ hobserve => Plugin.keeps_observer (hplugins e he) hobserve, nofun⟩
    refine (PluginRoster.framed_collect hplugins).bind fun actions hactions =>
      (framed_registerAll hasked hactions).bind fun r hr => ?_
    have hmodules : (r.loadModules shelf names).Framed F fun loaded =>
        loaded.1.Keeps F ∧ loaded.2.Keeps F :=
      Call.framed_foldlM (fun _ hloaded name _ => framed_loadModule hloaded.1 hloaded.2 name)
        ⟨hr, hshelf⟩
    exact hmodules.mono fun _ hloaded => hloaded.1
  unfold load
  dsimp only
  split
  · exact (PluginRoster.framed_discover h).bind hrest
  · exact (Call.framed_pure h).bind hrest

end Registry

/-! ### Runs -/

namespace Service

theorem keeps_dispatch {r : Registry σ} (h : r.Keeps F) (notice : Notice) :
    (dispatch r notice).Keeps F := by
  have hnotify : (r.plugins.notify notice).Keeps F.celled := by
    refine Call.keeps_forM fun observe hobserve => Call.keeps_readCell.bind fun errors _ => ?_
    obtain ⟨e, he, hsome⟩ := List.mem_filterMap.1 hobserve
    exact h.observers e (List.mem_reverse.1 he) observe hsome _
  unfold dispatch
  refine (Call.keeps_withCell hnotify notice.errors).bind fun told _ => ?_
  obtain ⟨outcome, left⟩ := told
  cases outcome with
  | ok _ => exact Call.framed_pure trivial
  | error f => exact (Call.keeps_log _ _ _).bind fun _ _ => Call.framed_pure trivial

theorem keeps_logRaised (name : String) (outcome : Except Failure Value) :
    (logRaised name outcome : Call σ Unit).Keeps F := by
  unfold logRaised
  split
  · exact Call.framed_pure trivial
  · split
    · exact Call.framed_pure trivial
    · exact Call.keeps_log _ _ _

theorem keeps_perform {r : Registry σ} (h : r.Keeps F) {key : Value} {a : Action σ}
    (ha : r.get? key = some a) (name : String) (jacks props : Value) :
    (perform r a name jacks props).Keeps F := by
  obtain ⟨j, hmem, -⟩ := Keyed.mem_of_get? ha
  have hcall : (a.call jacks props).Keeps F := (h.actions _ hmem).call jacks props
  have hending : ∀ outcome, (Call.ofExcept (Ending.ofOutcome outcome) : Call σ Ending).Keeps F :=
    fun _ => Call.keeps_ofExcept _
  unfold perform
  exact hcall.attempt.bind fun outcome _ => (keeps_logRaised name outcome).bind fun _ _ =>
    (hending outcome).bind fun _ _ => (keeps_dispatch h _).bind fun _ _ => Call.framed_pure trivial

/-- The scene after a run of a known action is the one that the action and the observers leave. -/
theorem scene_run {r : Registry σ} {name : String} {a : Action σ}
    (ha : r.get? (.str name) = some a) (jacks props : Value) (s : Scene σ) :
    ((run r name jacks props).runIn s).2 =
      ((Call.withAction name (perform r a name jacks props)).runIn s).2 := by
  unfold run
  rw [ha]
  dsimp only
  rw [Call.runIn_bind]
  rcases (Call.withAction name (perform r a name jacks props)).runIn s with ⟨_ | _, t⟩ <;> rfl

/-- An order to run an action. -/
structure Order (σ : Type) where
  registry : Registry σ
  action : String
  jacks : Value
  props : Value

namespace Order

def run (o : Order σ) : Call σ ServiceResult :=
  Service.run o.registry o.action o.jacks o.props

/-- The action is registered. -/
def Known (o : Order σ) : Prop := ∃ a, o.registry.get? (.str o.action) = some a

variable {o : Order σ}

theorem tagged (h : o.registry.Keeps (.value "action")) (hknown : o.Known) (s : Scene σ) :
    s.Tagged "action" (· = some (.str o.action)) (o.run.runIn s).2 := by
  obtain ⟨a, ha⟩ := hknown
  rw [run, scene_run ha]
  exact (keeps_perform h ha o.action o.jacks o.props).tagged_withKey (.str o.action) s

end Order

end Service

/-! ### Programs -/

namespace Cli

variable {shelf : ModuleShelf σ} {installed : Call σ (PluginRoster σ)}

variable {surroundings : Surroundings} {args : List String}

end Cli

section Office

variable {F : Frame Unit}

end Office

/-- A scene in which names are bound already. -/
def opened : Scene Unit := ⟨[("action", .str "Sort"), ("command", .str "list")], [], 0, ()⟩

end CheckedActions
