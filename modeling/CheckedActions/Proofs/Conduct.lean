import CheckedActions.Proofs.Sources

/-!
What the sources of a load pass on to it. Asking a plugin and importing a module add nothing to what
the source itself does but records of the roster. So a property of calls that effectless calls have,
and that calls in a row inherit, is one of asking and importing when it is one of the sources.
-/

namespace CheckedActions

variable {σ : Type}

/-- A property that calls inherit from the calls they consist of. -/
structure Call.Conduct (P : {α : Type} → Call σ α → Prop) : Prop where
  pure : ∀ {α : Type} (a : α), P (Pure.pure a : Call σ α)
  bind : ∀ {α β : Type} {c : Call σ α} {k : α → Call σ β}, P c → (∀ a, P (k a)) → P (c >>= k)
  attempt : ∀ {α : Type} {c : Call σ α}, P c → P (Call.attempt c)
  log : ∀ level event, P (Call.log level PluginRoster.logger event : Call σ Unit)

variable {P : {α : Type} → Call σ α → Prop}

theorem Call.conduct_foldlM (hP : Conduct P) {α β : Type} {f : β → α → Call σ β} {xs : List α}
    (h : ∀ b, ∀ x ∈ xs, P (f b x)) (b : β) : P (xs.foldlM f b) := by
  induction xs generalizing b with
  | nil => exact hP.pure b
  | cons x xs ih =>
    rw [List.foldlM_cons]
    exact hP.bind (h b x List.mem_cons_self) fun c => ih (fun b y hy => h b y (.tail x hy)) c

/-- The class that the plugin is, or is an object of. -/
def Plugin.origin : Plugin σ → PluginClass σ
  | object c => c
  | unmade c => c

namespace PluginRoster

theorem conduct_logSkipped (hP : Call.Conduct P) (plugin : String) (entries : Keyed (Offer σ)) :
    P (logSkipped plugin entries) := by
  induction entries with
  | nil => exact hP.pure ()
  | cons e entries ih =>
    rcases e with ⟨k, _ | _⟩
    · exact ih
    · exact hP.bind (hP.log _ _) fun _ => ih

theorem conduct_offersOf (hP : Call.Conduct P) (name : String) {p : Plugin σ}
    (h : ∀ ask, p.offers? = some ask → P ask) : P (offersOf name p) := by
  unfold offersOf
  cases hask : p.offers? with
  | none => exact hP.pure []
  | some ask =>
    apply hP.bind (hP.attempt (h ask hask))
    intro outcome
    rcases outcome with f | _ | entries | v
    · exact hP.bind (hP.log _ _) fun _ => hP.pure []
    · exact hP.pure []
    · exact hP.bind (conduct_logSkipped hP name entries) fun _ => hP.pure _
    · exact hP.bind (hP.log _ _) fun _ => hP.pure []

theorem conduct_replace (hP : Call.Conduct P) (r : PluginRoster σ) (name : String)
    {c : PluginClass σ} (h : P c.construct) : P (r.replace name c) := by
  unfold replace
  apply hP.bind (hP.attempt h)
  intro outcome
  cases outcome with
  | error f => exact hP.bind (hP.log _ _) fun _ => hP.pure _
  | ok _ =>
    dsimp only
    rw [add_remove]
    exact hP.bind (hP.pure _) fun _ => hP.bind (hP.log _ _) fun _ => hP.pure _

theorem conduct_settle (hP : Call.Conduct P) (r : PluginRoster σ) (name : String) {p : Plugin σ}
    (h : P p.origin.construct) : P (r.settle name p) := by
  cases hc : p.hookedClass? with
  | none =>
    rw [settle_of_none hc]
    exact hP.pure r
  | some c =>
    rw [settle_of_some hc]
    obtain ⟨rfl, -⟩ := Plugin.hookedClass?_eq_some_iff.1 hc
    exact conduct_replace hP r name h

/-- Discovery makes objects and nothing else. -/
theorem conduct_discover (hP : Call.Conduct P) {r : PluginRoster σ}
    (h : ∀ e ∈ r.plugins, P e.2.origin.construct) : P r.discover :=
  hP.bind (Call.conduct_foldlM hP (fun b e he => conduct_settle hP b e.1 (h e he)) r)
    fun _ => hP.pure _

theorem origin_settle {r after : PluginRoster σ} {name : String} {p : Plugin σ} {s t : Scene σ}
    (h : (r.settle name p).runIn s = (.ok after, t)) {e : String × Plugin σ}
    (he : e ∈ after.plugins) : e ∈ r.plugins ∨ e.2.origin = p.origin := by
  cases hc : p.hookedClass? with
  | none =>
    rw [settle_of_none hc] at h
    cases h
    exact .inl he
  | some c =>
    rw [settle_of_some hc, runIn_replace] at h
    cases h
    obtain ⟨rfl, -⟩ := Plugin.hookedClass?_eq_some_iff.1 hc
    rcases List.mem_append.1 he with he | he
    · exact .inl (List.mem_filter.1 he).1
    · obtain ⟨-, rfl⟩ := Making.entry?_eq_some_iff.1 (Option.mem_toList.1 he)
      exact .inr rfl

/-- The plugins after discovery are of the classes that the plugins before it are of. -/
theorem origin_discover {r after : PluginRoster σ} {s t : Scene σ}
    (h : r.discover.runIn s = (.ok after, t)) {e : String × Plugin σ} (he : e ∈ after.plugins) :
    ∃ d ∈ r.plugins, e.2.origin = d.2.origin := by
  obtain ⟨settled, u, hrun, hlast⟩ := Call.runIn_bind_eq_ok_iff.1 h
  cases hlast
  refine Call.foldlM_keeps
    (I := fun b : PluginRoster σ => ∀ e ∈ b.plugins, ∃ d ∈ r.plugins, e.2.origin = d.2.origin)
    ?_ (fun e he => ⟨e, he, rfl⟩) hrun e he
  intro d hd b u v w hb hstep e he
  rcases origin_settle hstep he with he | horigin
  · exact hb e he
  · exact ⟨d, hd, horigin⟩

end PluginRoster

namespace ModuleShelf

theorem source?_of_find {shelf : ModuleShelf σ} {name : String} {run : Call σ (ModuleContent σ)}
    (h : shelf.find name = .ok run) : shelf.source? name = some run := by
  unfold find at h
  dsimp only at h
  split at h
  · split at h
    · split at h
      · cases h
        assumption
      · nomatch h
    · nomatch h
  · split at h
    · cases h
      assumption
    · nomatch h

theorem conduct_find (hP : Call.Conduct P) {shelf : ModuleShelf σ}
    (h : ∀ e ∈ shelf.sources, P e.2) {name : String} {run : Call σ (ModuleContent σ)}
    (hrun : shelf.find name = .ok run) : P run := by
  have hsource := source?_of_find hrun
  unfold source? at hsource
  split at hsource
  · rename_i found hfound
    cases hsource
    obtain ⟨before, after, hsources, -⟩ := List.lookup_eq_some_iff.1 hfound
    have hmem : (name, run) ∈ shelf.sources := by simp [hsources]
    exact h _ hmem
  · split at hsource
    · cases hsource
      exact hP.pure _
    · nomatch hsource

theorem conduct_runAll (hP : Call.Conduct P) {shelf : ModuleShelf σ}
    (h : ∀ e ∈ shelf.sources, P e.2) (names : List String) : P (shelf.runAll names) := by
  induction names generalizing shelf with
  | nil => exact hP.pure _
  | cons name names ih =>
    unfold runAll
    split
    · exact ih h
    · cases hfind : shelf.find name with
      | error f => exact hP.pure _
      | ok run =>
        apply hP.bind (hP.attempt (conduct_find hP h hfind))
        intro outcome
        cases outcome with
        | error f => exact hP.pure _
        | ok content =>
          have hkept : ∀ e ∈ (shelf.keep name content).sources, P e.2 := h
          exact ih hkept

/-- Importing a module runs the sources on the shelf and nothing else. -/
theorem conduct_load (hP : Call.Conduct P) {shelf : ModuleShelf σ}
    (h : ∀ e ∈ shelf.sources, P e.2) (name : String) : P (shelf.load name) := by
  unfold load
  split
  · exact hP.pure _
  · split
    · exact hP.pure _
    · exact hP.bind (conduct_runAll hP h _) fun _ => hP.pure _

/-- Running modules adds none to the shelf. -/
theorem sources_runAll {names : List String} {shelf left : ModuleShelf σ} {s t : Scene σ}
    {outcome : Except Failure Unit} (h : (shelf.runAll names).runIn s = (.ok (outcome, left), t)) :
    left.sources = shelf.sources := by
  induction names generalizing shelf s with
  | nil =>
    cases h
    rfl
  | cons name names ih =>
    unfold runAll at h
    split at h
    · exact ih h
    · cases hfind : shelf.find name with
      | error f =>
        rw [hfind] at h
        cases h
        rfl
      | ok run =>
        rw [hfind] at h
        obtain ⟨result, u, -, h⟩ := Call.runIn_bind_eq_ok_iff.1 h
        cases result with
        | error f =>
          cases h
          rfl
        | ok content =>
          have hsources := ih (show ((shelf.keep name content).runAll names).runIn u = _ from h)
          exact hsources

theorem sources_load {name : String} {shelf left : ModuleShelf σ} {s t : Scene σ}
    {outcome : Except Failure (ModuleContent σ)}
    (h : (shelf.load name).runIn s = (.ok (outcome, left), t)) : left.sources = shelf.sources := by
  unfold load at h
  split at h
  · cases h
    rfl
  · split at h
    · cases h
      rfl
    · obtain ⟨result, u, hrun, h⟩ := Call.runIn_bind_eq_ok_iff.1 h
      cases h
      exact sources_runAll hrun

end ModuleShelf
end CheckedActions
