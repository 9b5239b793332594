import CheckedActions.Plugin.Roster
import CheckedActions.Proofs.Runs
import Mathlib.Data.List.Nodup

/-!
What discovery makes of plugins. A class with hooks is taken out, and an object of it takes its
place if one can be made. No class is touched twice, none costs another plugin its place, and when
all of them are settled there is nothing left to do.
-/

namespace CheckedActions

variable {σ : Type}

theorem Plugin.hookedClass?_eq_some_iff {p : Plugin σ} {c : PluginClass σ} :
    p.hookedClass? = some c ↔ p = .unmade c ∧ c.hasHooks := by
  cases p with
  | object d => simp [hookedClass?]
  | unmade d =>
    simp only [hookedClass?, Option.ite_none_right_eq_some, Option.some.injEq, unmade.injEq]
    constructor
    · rintro ⟨h, rfl⟩
      exact ⟨rfl, h⟩
    · rintro ⟨rfl, h⟩
      exact ⟨h, rfl⟩

theorem Plugin.hookedClass?_eq_none_iff {p : Plugin σ} :
    p.hookedClass? = none ↔ ∀ c, p = .unmade c → c.hasHooks = false := by
  simp [Option.eq_none_iff_forall_ne_some, hookedClass?_eq_some_iff]

/-! ### Making objects -/

/-- The making of an object of a class: the name that the class is under, and how it ends. -/
structure Making (σ : Type) where
  name : String
  origin : PluginClass σ
  outcome : Except Failure Unit

namespace Making

/-- The object, if it could be made, under the name of its class. -/
def entry? (m : Making σ) : Option (String × Plugin σ) :=
  match m.outcome with
  | .ok _ => some (m.name, .object m.origin)
  | .error _ => none

theorem entry?_eq_some_iff {m : Making σ} {e : String × Plugin σ} :
    m.entry? = some e ↔ m.outcome.isOk ∧ e = (m.name, .object m.origin) := by
  unfold entry?
  cases m.outcome with
  | error f => simp
  | ok _ => simp [eq_comm]

/-- An object stays where its name is none of those taken out. -/
theorem filter_entry? {m : Making σ} {names : List String} (h : m.name ∉ names) :
    (m.entry?.toList.filter fun e => e.1 ∉ names) = m.entry?.toList := by
  refine List.filter_eq_self.2 fun e he => ?_
  obtain ⟨-, rfl⟩ := entry?_eq_some_iff.1 (Option.mem_toList.1 he)
  simpa using h

/-- The scene with a record of the making. -/
def recorded (m : Making σ) (s : Scene σ) : Scene σ :=
  match m.outcome with
  | .ok _ =>
    s.logged .debug PluginRoster.logger ("Instantiated entry-point plugin: " ++ m.name)
  | .error _ =>
    s.logged .warning PluginRoster.logger ("Failed to instantiate entry-point plugin " ++ m.name)

end Making

/-- Objects of classes are made in turn, each in the scene that the making before it leaves. -/
inductive Made : List (String × PluginClass σ) → Scene σ → List (Making σ) → Scene σ → Prop
  | done (s : Scene σ) : Made [] s [] s
  | next {name : String} {c : PluginClass σ} {classes : List (String × PluginClass σ)}
      {s t u : Scene σ} {outcome : Except Failure Unit} {makings : List (Making σ)}
      (h : c.construct.runIn s = (outcome, t))
      (rest : Made classes (Making.recorded ⟨name, c, outcome⟩ t) makings u) :
      Made ((name, c) :: classes) s (⟨name, c, outcome⟩ :: makings) u

theorem exists_made (classes : List (String × PluginClass σ)) (s : Scene σ) :
    ∃ makings t, Made classes s makings t := by
  induction classes generalizing s with
  | nil => exact ⟨[], s, .done s⟩
  | cons e classes ih =>
    obtain ⟨makings, t, hmade⟩ := ih _
    exact ⟨_, t, .next rfl hmade⟩

theorem Made.classes {classes : List (String × PluginClass σ)} {s t : Scene σ}
    {makings : List (Making σ)} (h : Made classes s makings t) :
    makings.map (fun m => (m.name, m.origin)) = classes := by
  induction h with
  | done s => rfl
  | next h rest ih => rw [List.map_cons, ih]

namespace PluginRoster

/-- The class gives its place to the object, if one can be made, and is gone in any case. -/
theorem runIn_replace (r : PluginRoster σ) (name : String) (c : PluginClass σ) (s : Scene σ) :
    let m : Making σ := ⟨name, c, (c.construct.runIn s).1⟩
    (r.replace name c).runIn s =
      (.ok { r with plugins := (r.remove name).plugins ++ m.entry?.toList },
        m.recorded (c.construct.runIn s).2) := by
  unfold replace
  rw [Call.runIn_bind, Call.runIn_attempt]
  rcases c.construct.runIn s with ⟨f | _, t⟩
  · dsimp only
    rw [Call.runIn_bind_ok (Call.runIn_log _ _ _ _)]
    simp [Making.entry?, Making.recorded, remove]
  · dsimp only
    rw [add_remove, Call.runIn_bind_ok (Call.runIn_ofExcept _ _),
      Call.runIn_bind_ok (Call.runIn_log _ _ _ _)]
    rfl

theorem settle_of_none {r : PluginRoster σ} {name : String} {p : Plugin σ}
    (h : p.hookedClass? = none) : r.settle name p = pure r := by
  unfold settle
  rw [h]

theorem settle_of_some {r : PluginRoster σ} {name : String} {p : Plugin σ} {c : PluginClass σ}
    (h : p.hookedClass? = some c) : r.settle name p = r.replace name c := by
  unfold settle
  rw [h]

/-! ### Settling plugins -/

/-- The classes with hooks among plugins, each under its name. -/
def hookedClasses (plugins : List (String × Plugin σ)) : List (String × PluginClass σ) :=
  plugins.filterMap fun e => e.2.hookedClass?.map fun c => (e.1, c)

theorem hookedClasses_cons_none {e : String × Plugin σ} (h : e.2.hookedClass? = none)
    (plugins : List (String × Plugin σ)) :
    hookedClasses (e :: plugins) = hookedClasses plugins := by
  simp [hookedClasses, h]

theorem hookedClasses_cons_some {e : String × Plugin σ} {c : PluginClass σ}
    (h : e.2.hookedClass? = some c) (plugins : List (String × Plugin σ)) :
    hookedClasses (e :: plugins) = (e.1, c) :: hookedClasses plugins := by
  simp [hookedClasses, h]

theorem mem_hookedClasses {plugins : List (String × Plugin σ)} {name : String}
    {c : PluginClass σ} :
    (name, c) ∈ hookedClasses plugins ↔ (name, .unmade c) ∈ plugins ∧ c.hasHooks := by
  unfold hookedClasses
  constructor
  · intro h
    obtain ⟨e, he, hc⟩ := List.mem_filterMap.1 h
    obtain ⟨d, hd, heq⟩ := Option.map_eq_some_iff.1 hc
    obtain ⟨hplugin, hhooks⟩ := Plugin.hookedClass?_eq_some_iff.1 hd
    cases heq
    exact ⟨hplugin ▸ he, hhooks⟩
  · rintro ⟨he, hhooks⟩
    refine List.mem_filterMap.2 ⟨_, he, ?_⟩
    rw [Plugin.hookedClass?_eq_some_iff.2 ⟨rfl, hhooks⟩]
    rfl

theorem names_hookedClasses_sublist (plugins : List (String × Plugin σ)) :
    ((hookedClasses plugins).map (·.1)).Sublist (plugins.map (·.1)) := by
  induction plugins with
  | nil => exact .slnil
  | cons e plugins ih =>
    cases hc : e.2.hookedClass? with
    | none =>
      rw [hookedClasses_cons_none hc]
      exact ih.cons e.1
    | some c =>
      rw [hookedClasses_cons_some hc]
      exact ih.cons_cons e.1

theorem filter_remove (r : PluginRoster σ) (name : String) (names : List String) :
    ((r.remove name).plugins.filter fun e => e.1 ∉ names) =
      r.plugins.filter fun e => e.1 ∉ name :: names := by
  rw [remove, List.filter_filter]
  refine List.filter_congr fun e _ => ?_
  simp [Bool.and_comm]

/-- Classes with hooks are gone, whatever becomes of the others, and the objects stand behind the
plugins that are left. -/
theorem runIn_settleAll {plugins : List (String × Plugin σ)} (hp : (plugins.map (·.1)).Nodup)
    {s t : Scene σ} {makings : List (Making σ)} (h : Made (hookedClasses plugins) s makings t)
    (r : PluginRoster σ) :
    (r.settleAll plugins).runIn s =
      (.ok { r with
        plugins := (r.plugins.filter fun e => e.1 ∉ (hookedClasses plugins).map (·.1)) ++
          makings.filterMap Making.entry? }, t) := by
  induction plugins generalizing r s makings with
  | nil =>
    cases h
    have hall : (r.plugins.filter fun e => e.1 ∉ (hookedClasses ([] : List (String × Plugin σ))).map
        (·.1)) ++ ([] : List (Making σ)).filterMap Making.entry? = r.plugins := by
      simp [hookedClasses]
    rw [hall]
    rfl
  | cons e plugins ih =>
    obtain ⟨he, hrest⟩ := List.nodup_cons.1 hp
    unfold settleAll
    rw [List.foldlM_cons]
    cases hc : e.2.hookedClass? with
    | none =>
      rw [hookedClasses_cons_none hc] at h ⊢
      rw [settle_of_none hc, pure_bind]
      exact ih hrest h r
    | some c =>
      rw [hookedClasses_cons_some hc] at h ⊢
      cases h with | next hmaking hmade
      rename_i u outcome makings
      have hreplace := r.runIn_replace e.1 c s
      rw [hmaking] at hreplace
      rw [settle_of_some hc, Call.runIn_bind_ok hreplace]
      refine (ih hrest hmade _).trans ?_
      have hfree : e.1 ∉ (hookedClasses plugins).map (·.1) :=
        fun hmem => he ((names_hookedClasses_sublist plugins).subset hmem)
      rw [List.filter_append, filter_remove, Making.filter_entry? hfree, List.append_assoc]
      cases outcome <;> rfl

/-! ### Distinct names -/

theorem nodup_remove {r : PluginRoster σ} (hr : r.names.Nodup) (name : String) :
    (r.remove name).names.Nodup := hr.sublist (List.filter_sublist.map _)

/-- A plugin is added under a name of its own only. -/
theorem nodup_add {r after : PluginRoster σ} (hr : r.names.Nodup) {name : String} {p : Plugin σ}
    (h : r.add name p = .ok after) : after.names.Nodup := by
  unfold add at h
  split at h
  · cases h
  · rename_i hfree
    cases h
    have hnames : names { r with plugins := r.plugins ++ [(name, p)] } = r.names ++ [name] := by
      simp [names]
    rw [hnames]
    refine List.nodup_append.2 ⟨hr, List.nodup_singleton name, ?_⟩
    rintro k hk _ hname rfl
    obtain rfl := List.mem_singleton.1 hname
    exact hfree (List.contains_iff_mem.2 hk)

theorem nodup_settle {r after : PluginRoster σ} (hr : r.names.Nodup) {name : String}
    {p : Plugin σ} {s t : Scene σ} (h : (r.settle name p).runIn s = (.ok after, t)) :
    after.names.Nodup := by
  cases hc : p.hookedClass? with
  | none =>
    rw [settle_of_none hc] at h
    cases h
    exact hr
  | some c =>
    have hremoved := nodup_remove hr name
    rw [settle_of_some hc, runIn_replace] at h
    cases h
    cases (c.construct.runIn s).1 with
    | error f => simpa [Making.entry?, names] using hremoved
    | ok _ => exact nodup_add hremoved (add_remove r name _)

theorem nodup_discover {r after : PluginRoster σ} (hr : r.names.Nodup) {s t : Scene σ}
    (h : r.discover.runIn s = (.ok after, t)) : after.names.Nodup := by
  obtain ⟨settled, u, hrun, hlast⟩ := Call.runIn_bind_eq_ok_iff.1 h
  cases hlast
  have hsettled : settled.names.Nodup :=
    Call.foldlM_keeps (I := fun b : PluginRoster σ => b.names.Nodup)
      (fun e _ b u c v hb hstep => nodup_settle hb hstep) hr hrun
  exact hsettled

theorem eq_of_mem {r : PluginRoster σ} (hr : r.names.Nodup) {name : String} {p q : Plugin σ}
    (hp : (name, p) ∈ r.plugins) (hq : (name, q) ∈ r.plugins) : p = q :=
  (Prod.mk.inj (List.inj_on_of_nodup_map hr hp hq rfl)).2

theorem mem_names {r : PluginRoster σ} {name : String} :
    name ∈ r.names ↔ ∃ p, (name, p) ∈ r.plugins := by
  simp [names]

/-! ### Discovery -/

theorem runIn_discover {r : PluginRoster σ} (hr : r.names.Nodup) {s t : Scene σ}
    {makings : List (Making σ)} (h : Made (hookedClasses r.plugins) s makings t) :
    r.discover.runIn s =
      (.ok {
        plugins := (r.plugins.filter fun e => e.2.hookedClass?.isNone) ++
          makings.filterMap Making.entry?
        discovered := true }, t) := by
  unfold discover
  rw [Call.runIn_bind_ok (runIn_settleAll hr h r)]
  have hkept : (r.plugins.filter fun e => e.1 ∉ (hookedClasses r.plugins).map (·.1)) =
      r.plugins.filter fun e => e.2.hookedClass?.isNone := by
    refine List.filter_congr fun e he => ?_
    cases hc : e.2.hookedClass? with
    | none =>
      refine decide_eq_true fun hmem => ?_
      obtain ⟨⟨name, c⟩, hd, hname⟩ := List.mem_map.1 hmem
      obtain ⟨hd, hhooks⟩ := mem_hookedClasses.1 hd
      obtain rfl : name = e.1 := hname
      rw [eq_of_mem hr he hd, Plugin.hookedClass?_eq_some_iff.2 ⟨rfl, hhooks⟩] at hc
      cases hc
    | some c =>
      obtain ⟨hplugin, hhooks⟩ := Plugin.hookedClass?_eq_some_iff.1 hc
      have hmem : (e.1, c) ∈ hookedClasses r.plugins := mem_hookedClasses.2 ⟨hplugin ▸ he, hhooks⟩
      exact decide_eq_false fun hfree => hfree (List.mem_map.2 ⟨_, hmem, rfl⟩)
  rw [hkept]
  rfl

theorem mem_of_made {r : PluginRoster σ} {s t : Scene σ} {makings : List (Making σ)}
    (h : Made (hookedClasses r.plugins) s makings t) {m : Making σ} (hm : m ∈ makings) :
    (m.name, .unmade m.origin) ∈ r.plugins ∧ m.origin.hasHooks := by
  apply mem_hookedClasses.1
  rw [← h.classes]
  exact List.mem_map.2 ⟨m, hm, rfl⟩

section Discovered

variable {r after : PluginRoster σ} {s t : Scene σ} {makings : List (Making σ)}
  (hr : r.names.Nodup) (hmade : Made (hookedClasses r.plugins) s makings t)
  (hrun : r.discover.runIn s = (.ok after, t))
include hr hmade hrun

/-- What there is after discovery: the plugins that needed no object, and the objects that could be
made. -/
theorem mem_discovered {name : String} {p : Plugin σ} :
    (name, p) ∈ after.plugins ↔
      (name, p) ∈ r.plugins ∧ p.hookedClass? = none ∨
        ∃ m ∈ makings, m.name = name ∧ m.outcome.isOk ∧ p = .object m.origin := by
  rw [runIn_discover hr hmade] at hrun
  cases hrun
  simp only [List.mem_append, List.mem_filter, Option.isNone_iff_eq_none, List.mem_filterMap,
    Making.entry?_eq_some_iff, Prod.mk.injEq]
  refine or_congr_right (exists_congr fun m => and_congr_right fun _ => ?_)
  constructor
  · rintro ⟨hok, rfl, rfl⟩
    exact ⟨rfl, hok, rfl⟩
  · rintro ⟨rfl, hok, rfl⟩
    exact ⟨hok, rfl, rfl⟩

/-- The place of a class with hooks is the object's if that could be made, and nobody's if not. -/
theorem exists_making {name : String} {c : PluginClass σ} (hc : (name, .unmade c) ∈ r.plugins)
    (hhooks : c.hasHooks) :
    ∃ m ∈ makings, m.name = name ∧ m.origin = c ∧
      ∀ p, (name, p) ∈ after.plugins ↔ m.outcome.isOk ∧ p = .object c := by
  have hclass : (name, c) ∈ makings.map fun m => (m.name, m.origin) := by
    rw [hmade.classes]
    exact mem_hookedClasses.2 ⟨hc, hhooks⟩
  obtain ⟨m, hm, heq⟩ := List.mem_map.1 hclass
  obtain ⟨rfl, rfl⟩ := Prod.mk.inj heq
  refine ⟨m, hm, rfl, rfl, fun p => ?_⟩
  rw [mem_discovered hr hmade hrun]
  constructor
  · rintro (⟨hp, hnone⟩ | ⟨m', hm', hname, hok, rfl⟩)
    · rw [eq_of_mem hr hp hc, Plugin.hookedClass?_eq_some_iff.2 ⟨rfl, hhooks⟩] at hnone
      cases hnone
    · -- No other making can have put it there, as no other class has the name.
      have hnames : (makings.map (·.name)).Nodup := by
        have hclasses := hr.sublist (names_hookedClasses_sublist r.plugins)
        rwa [← hmade.classes, List.map_map] at hclasses
      obtain rfl := List.inj_on_of_nodup_map hnames hm' hm hname
      exact ⟨hok, rfl⟩
  · rintro ⟨hok, rfl⟩
    exact .inr ⟨m, hm, rfl, hok, rfl⟩

/-- Any other plugin has its place and its name as before. -/
theorem mem_kept {name : String} {p : Plugin σ} (hp : (name, p) ∈ r.plugins)
    (hnone : p.hookedClass? = none) (q : Plugin σ) : (name, q) ∈ after.plugins ↔ q = p := by
  rw [mem_discovered hr hmade hrun]
  constructor
  · rintro (⟨hq, -⟩ | ⟨m, hm, rfl, -, -⟩)
    · exact eq_of_mem hr hq hp
    · obtain ⟨hclass, hhooks⟩ := mem_of_made hmade hm
      rw [eq_of_mem hr hp hclass, Plugin.hookedClass?_eq_some_iff.2 ⟨rfl, hhooks⟩] at hnone
      cases hnone
  · rintro rfl
    exact .inl ⟨hp, hnone⟩

theorem mem_names_of_discovered {name : String} (h : name ∈ after.names) : name ∈ r.names := by
  obtain ⟨p, hp⟩ := mem_names.1 h
  rcases (mem_discovered hr hmade hrun).1 hp with ⟨hp, -⟩ | ⟨m, hm, rfl, -, -⟩
  · exact mem_names.2 ⟨p, hp⟩
  · exact mem_names.2 ⟨_, (mem_of_made hmade hm).1⟩

theorem hookedClass?_of_discovered {name : String} {p : Plugin σ} (h : (name, p) ∈ after.plugins) :
    p.hookedClass? = none := by
  rcases (mem_discovered hr hmade hrun).1 h with ⟨-, hnone⟩ | ⟨m, -, -, -, rfl⟩
  · exact hnone
  · rfl

/-- Where discovery has been, there is nothing left to make. -/
theorem discover_again (u : Scene σ) : after.discover.runIn u = (.ok after, u) := by
  have hnone : ∀ e ∈ after.plugins, e.2.hookedClass? = none :=
    fun e he => hookedClass?_of_discovered hr hmade hrun he
  have hclasses : hookedClasses after.plugins = [] := by
    refine List.filterMap_eq_nil_iff.2 fun e he => ?_
    rw [hnone e he]
    rfl
  have hagain := runIn_discover (nodup_discover hr hrun) (hclasses ▸ Made.done u)
  have hall : (after.plugins.filter fun e => e.2.hookedClass?.isNone) = after.plugins := by
    refine List.filter_eq_self.2 fun e he => ?_
    rw [hnone e he]
    rfl
  have hdiscovered : after.discovered = true := by
    rw [runIn_discover hr hmade] at hrun
    cases hrun
    rfl
  rw [hagain, hall, List.filterMap_nil, List.append_nil, ← hdiscovered]

end Discovered

/-- Discovery makes an object of every class with hooks, once, whatever plugins there are under
distinct names. It always returns, and what it does is to make these objects in turn, each in the
scene that the one before it leaves, and to record how that ends. The object takes the place of its
class, under the same name, and a class of which no object can be made is gone. All other plugins
stay under their names, no class with hooks is left, and doing it once more changes nothing. -/
theorem discover_replaces {r : PluginRoster σ} (hr : r.names.Nodup) (s : Scene σ) :
    ∃ after makings t,
      r.discover.runIn s = (.ok after, t) ∧ Made (hookedClasses r.plugins) s makings t ∧
      (∀ name c, (name, .unmade c) ∈ r.plugins → c.hasHooks →
        ∃ m ∈ makings, m.name = name ∧ m.origin = c ∧
          ∀ p, (name, p) ∈ after.plugins ↔ m.outcome.isOk ∧ p = .object c) ∧
      (∀ name p, (name, p) ∈ r.plugins → (∀ c, p = .unmade c → c.hasHooks = false) →
        ∀ q, (name, q) ∈ after.plugins ↔ q = p) ∧
      after.names.Nodup ∧ (∀ name ∈ after.names, name ∈ r.names) ∧
      (∀ name c, (name, .unmade c) ∈ after.plugins → c.hasHooks = false) ∧
      ∀ u, after.discover.runIn u = (.ok after, u) := by
  obtain ⟨makings, t, hmade⟩ := exists_made (hookedClasses r.plugins) s
  obtain ⟨after, hrun⟩ : ∃ after, r.discover.runIn s = (.ok after, t) :=
    ⟨_, runIn_discover hr hmade⟩
  refine ⟨after, makings, t, hrun, hmade, ?replaced, ?kept, nodup_discover hr hrun, ?known,
    ?settled, discover_again hr hmade hrun⟩
  case replaced => exact fun name c hc hhooks => exists_making hr hmade hrun hc hhooks
  case kept =>
    intro name p hp hother
    exact mem_kept hr hmade hrun hp (Plugin.hookedClass?_eq_none_iff.2 hother)
  case known => exact fun name hname => mem_names_of_discovered hr hmade hrun hname
  case settled =>
    intro name c hc
    have hnone := hookedClass?_of_discovered hr hmade hrun hc
    exact Plugin.hookedClass?_eq_none_iff.1 hnone c rfl

/-- A class of observers that counts the attempts to make one, which can all fail. -/
def watcher (fails : Bool) : PluginClass Nat where
  name := "Watcher"
  construct := do
    modify fun s => { s with host := s.host + 1 }
    if fails then throw (.host "RuntimeError" [])
  offers? := none
  offersMarked := false
  observer? := some fun _ => pure ()
  observerMarked := true

/-- A class of which no object can be made, one of which an object can, an object and a class
without hooks. -/
def watchers : PluginRoster Nat where
  plugins := [("broken", .unmade (watcher true)), ("fresh", .unmade (watcher false)),
    ("made", .object (watcher true)),
    ("plain", .unmade { watcher true with observerMarked := false })]
  discovered := false

/-- Two objects are tried, and the class that cannot be made costs no other plugin its place. -/
theorem watchers_replaced : watchers.names.Nodup ∧ ∃ after t,
    watchers.discover.runIn (.initial 0) = (.ok after, t) ∧ t.host = 2 ∧
      "broken" ∉ after.names ∧
      (∀ p, ("fresh", p) ∈ after.plugins ↔ p = .object (watcher false)) ∧
      (∀ p, ("made", p) ∈ after.plugins ↔ p = .object (watcher true)) ∧
      ("plain", .unmade { watcher true with observerMarked := false }) ∈ after.plugins ∧
      after.discover.runIn t = (.ok after, t) := by
  have hnames : watchers.names.Nodup := by decide
  obtain ⟨after, makings, t, hrun, hmade, hreplaced, hkept, -, -, -, hagain⟩ :=
    discover_replaces hnames (.initial 0)
  cases hmade with | next hbroken hrest
  cases hrest with | next hfresh hdone
  cases hdone
  cases hbroken
  cases hfresh
  refine ⟨hnames, after, _, hrun, rfl, ?broken, ?fresh, ?made, ?plain, hagain _⟩
  case broken =>
    intro hname
    obtain ⟨p, hp⟩ := mem_names.1 hname
    obtain ⟨m, hm, hname, -, hplace⟩ := hreplaced "broken" (watcher true) (by simp [watchers]) rfl
    rcases List.mem_cons.1 hm with rfl | hm
    · nomatch ((hplace p).1 hp).1
    · obtain rfl := List.mem_singleton.1 hm
      exact absurd hname (by decide)
  case fresh =>
    obtain ⟨m, hm, hname, -, hplace⟩ := hreplaced "fresh" (watcher false) (by simp [watchers]) rfl
    rcases List.mem_cons.1 hm with rfl | hm
    · exact absurd hname (by decide)
    · obtain rfl := List.mem_singleton.1 hm
      exact fun p => (hplace p).trans (and_iff_right rfl)
  case made => exact hkept "made" (.object (watcher true)) (by simp [watchers]) nofun
  case plain =>
    refine (hkept "plain" _ (by simp [watchers]) ?_ _).2 rfl
    rintro c ⟨⟩
    rfl

end PluginRoster
end CheckedActions
