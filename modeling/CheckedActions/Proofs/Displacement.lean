import CheckedActions.Proofs.Conduct
import CheckedActions.Proofs.Names

/-!
Displaced actions. The registry reports every entry that puts another action in the place of one
that is there. So a load reports a name exactly when two different actions contend for it. But of
what plugins offer under a name only the last contends: the others are displaced before the registry
sees them, and nothing is reported.
-/

namespace CheckedActions

variable {σ α β : Type}

/-! ### Contending for a name -/

namespace Registry

/-- An action is held under a key, or is among the entries made under it. -/
def Claims (held entries : Keyed (Action σ)) (k : Value) (a : Action σ) : Prop :=
  held.get? k = some a ∨ ∃ e ∈ entries, e.1.sameKey k ∧ e.2 = a

theorem Claims.of_put {held : Keyed (Action σ)} {e : Value × Action σ} {es : Keyed (Action σ)}
    {k : Value} {a : Action σ} (h : Claims (held.put e.1 e.2) es k a) :
    Claims held (e :: es) k a := by
  rcases h with hheld | ⟨d, hd, hk⟩
  · rw [Keyed.get?_put] at hheld
    split at hheld
    · rename_i hk
      exact .inr ⟨e, List.mem_cons_self, hk, Option.some.inj hheld⟩
    · exact .inl hheld
  · exact .inr ⟨d, List.mem_cons_of_mem e hd, hk⟩

/-- An entry that displaces nothing under a key leaves the same actions to contend for it. -/
theorem Claims.put {held : Keyed (Action σ)} {e : Value × Action σ} {es : Keyed (Action σ)}
    {k : Value} {a : Action σ} (h : Claims held (e :: es) k a)
    (hnew : e.1.sameKey k → ∀ old, held.get? e.1 = some old → old.number = e.2.number) :
    ∃ b, Claims (held.put e.1 e.2) es k b ∧ b.number = a.number := by
  have hput := Keyed.get?_put held e.1 e.2 k
  rcases h with hheld | ⟨d, hd, hdk, rfl⟩
  · by_cases hk : e.1.sameKey k
    · have hsame : held.get? e.1 = some a := (Keyed.get?_congr hk held).trans hheld
      rw [if_pos hk] at hput
      exact ⟨e.2, .inl hput, (hnew hk a hsame).symm⟩
    · rw [if_neg hk] at hput
      exact ⟨a, .inl (hput.trans hheld), rfl⟩
  · rcases List.mem_cons.1 hd with rfl | hd
    · rw [if_pos hdk] at hput
      exact ⟨d.2, .inl hput, rfl⟩
    · exact ⟨d.2, .inr ⟨d, hd, hdk, rfl⟩, rfl⟩

theorem mem_displaced_cons {held : Keyed (Action σ)} {e : Value × Action σ}
    {es : Keyed (Action σ)} {j : Value} :
    j ∈ displaced held (e :: es) ↔
      (j = e.1 ∧ ∃ old, held.get? e.1 = some old ∧ old.number ≠ e.2.number) ∨
        j ∈ displaced (held.put e.1 e.2) es := by
  rw [displaced, List.mem_append]
  cases held.get? e.1 with
  | none => simp
  | some old => by_cases h : old.number = e.2.number <;> simp [h]

/-- Where two different actions contend, one is displaced. -/
theorem exists_displaced {held entries : Keyed (Action σ)} {k : Value} {a b : Action σ}
    (ha : Claims held entries k a) (hb : Claims held entries k b) (hab : a.number ≠ b.number) :
    ∃ j ∈ displaced held entries, j.sameKey k := by
  -- As long as entries displace nothing under the key, two actions with these numbers contend.
  induction entries generalizing held a b with
  | nil =>
    have hheld : ∀ {c}, Claims held [] k c → held.get? k = some c := by
      rintro c (hc | ⟨e, he, -⟩)
      · exact hc
      · nomatch he
    have heq : some a = some b := (hheld ha).symm.trans (hheld hb)
    cases heq
    exact absurd rfl hab
  | cons e es ih =>
    by_cases hd : e.1.sameKey k ∧ ∃ old, held.get? e.1 = some old ∧ old.number ≠ e.2.number
    · exact ⟨e.1, mem_displaced_cons.2 (.inl ⟨rfl, hd.2⟩), hd.1⟩
    · have hnew : e.1.sameKey k → ∀ old, held.get? e.1 = some old → old.number = e.2.number := by
        intro hk old hold
        exact Decidable.byContradiction fun hne => hd ⟨hk, old, hold, hne⟩
      obtain ⟨a', ha', haa⟩ := ha.put hnew
      obtain ⟨b', hb', hbb⟩ := hb.put hnew
      have hab' : a'.number ≠ b'.number := by simpa [haa, hbb] using hab
      obtain ⟨j, hj, hjk⟩ := ih ha' hb' hab'
      exact ⟨j, mem_displaced_cons.2 (.inr hj), hjk⟩

/-- Where an action is displaced, two different ones contend. -/
theorem claims_of_displaced {held entries : Keyed (Action σ)} {j : Value}
    (h : j ∈ displaced held entries) :
    ∃ a b, Claims held entries j a ∧ Claims held entries j b ∧ a.number ≠ b.number := by
  induction entries generalizing held with
  | nil => nomatch h
  | cons e es ih =>
    rcases mem_displaced_cons.1 h with ⟨rfl, old, hold, hne⟩ | hj
    · obtain ⟨i, -, hi⟩ := Keyed.mem_of_get? hold
      have hself : e.1.sameKey e.1 := Value.sameKey_trans (Value.sameKey_symm hi) hi
      exact ⟨old, e.2, .inl hold, .inr ⟨e, List.mem_cons_self, hself, rfl⟩, hne⟩
    · obtain ⟨a, b, ha, hb, hab⟩ := ih hj
      exact ⟨a, b, ha.of_put, hb.of_put, hab⟩

end Registry

/-! ### Reports -/

/-- The record reports that an action was displaced under a name. -/
def LogRecord.reports (name : String) (x : LogRecord) : Bool :=
  x.level = .warning && x.logger = Registry.logger && x.event = Registry.displacedText name

namespace Registry

theorem displacedText_inj {m n : String} (h : displacedText m = displacedText n) : m = n := by
  simpa [displacedText] using h

/-- That a module cannot be imported is another report. -/
theorem not_reports_unimported (module : String) (keys : LogKeys) (name : String) :
    LogRecord.reports name
      ⟨.warning, logger, "Could not import action module " ++ module, keys⟩ = false := by
  have hne : "Could not import action module " ++ module ≠ displacedText name := by
    intro h
    have hchars := congrArg String.toList h
    simp [displacedText] at hchars
  simp [LogRecord.reports, hne]

end Registry

namespace Scene

/-- From one scene to another the journal grows, by one report for each time that a name comes up
among the given ones. -/
def Reports (s t : Scene σ) (names : List String) : Prop :=
  ∃ records, t.journal = s.journal ++ records ∧
    ∀ name, records.countP (LogRecord.reports name) = names.count name

theorem Reports.refl (s : Scene σ) : Reports s s [] := ⟨[], by simp, by simp⟩

theorem Reports.trans {s t u : Scene σ} {xs ys : List String} (hst : Reports s t xs)
    (htu : Reports t u ys) : Reports s u (xs ++ ys) := by
  obtain ⟨before, hbefore, hxs⟩ := hst
  obtain ⟨after, hafter, hys⟩ := htu
  refine ⟨before ++ after, ?_, ?_⟩
  · rw [hafter, hbefore, List.append_assoc]
  · intro name
    rw [List.countP_append, List.count_append, hxs, hys]

theorem reports_logged (s : Scene σ) {level : LogLevel} {logger event : String}
    (h : ∀ name, LogRecord.reports name ⟨level, logger, event, s.bound⟩ = false) :
    Reports s (s.logged level logger event) [] := by
  refine ⟨[_], rfl, ?_⟩
  intro name
  simp [h name]

theorem reports_displaced (s : Scene σ) (name : String) :
    Reports s (s.logged .warning Registry.logger (Registry.displacedText name)) [name] := by
  refine ⟨[_], rfl, ?_⟩
  intro other
  by_cases h : name = other
  · simp [h, LogRecord.reports]
  · have hne : Registry.displacedText name ≠ Registry.displacedText other :=
      fun heq => h (Registry.displacedText_inj heq)
    simp [h, hne, LogRecord.reports]

theorem reports_reporting (s : Scene σ) (names : List Value) :
    Reports s (s.reporting names) (names.map Value.text) := by
  induction names generalizing s with
  | nil => exact .refl s
  | cons k names ih => exact (reports_displaced s k.text).trans (ih _)

end Scene

/-! ### Sources that report nothing -/

/-- The call writes to the journal at most, and reports no displacement. -/
def Call.Quiet (c : Call σ α) : Prop := ∀ s, Scene.Reports s (c.runIn s).2 []

namespace Call

theorem quiet_pure (a : α) : Quiet (pure a : Call σ α) := Scene.Reports.refl

theorem Quiet.attempt {c : Call σ α} (h : c.Quiet) : (Call.attempt c).Quiet := h

theorem Quiet.bind {c : Call σ α} {k : α → Call σ β} (hc : c.Quiet) (hk : ∀ a, (k a).Quiet) :
    (c >>= k).Quiet := by
  intro s
  have hfirst := hc s
  rcases hrun : c.runIn s with ⟨f | a, t⟩
  · rw [runIn_bind_error hrun]
    rwa [hrun] at hfirst
  · rw [runIn_bind_ok hrun]
    rw [hrun] at hfirst
    exact hfirst.trans (hk a t)

theorem conduct_quiet : Conduct (@Quiet σ) where
  pure := quiet_pure
  bind := Quiet.bind
  attempt := Quiet.attempt
  log level event := by
    intro s
    apply Scene.reports_logged
    intro name
    simp [LogRecord.reports, PluginRoster.logger, Registry.logger]

theorem quiet_throw (f : Failure) : Quiet (throw f : Call σ α) := Scene.Reports.refl

end Call

/-- Making an object of the class and asking the object for actions report nothing. -/
structure PluginClass.Quiet (c : PluginClass σ) : Prop where
  construct : c.construct.Quiet
  offers : ∀ ask, c.offers? = some ask → ask.Quiet

def PluginRoster.Quiet (r : PluginRoster σ) : Prop := ∀ e ∈ r.plugins, e.2.origin.Quiet

def ModuleShelf.Quiet (shelf : ModuleShelf σ) : Prop := ∀ e ∈ shelf.sources, e.2.Quiet

theorem Plugin.quiet_offers {p : Plugin σ} (h : p.origin.Quiet) {ask : Call σ (Registration σ)}
    (hask : p.offers? = some ask) : ask.Quiet := by
  cases p with
  | object c => exact h.offers ask hask
  | unmade c =>
    obtain ⟨_, -, rfl⟩ := Option.map_eq_some_iff.1 hask
    exact Call.quiet_throw _

/-! ### Loads -/

theorem Asked.reports {plugins : List (String × Plugin σ)} {s t : Scene σ}
    {askings : List (Asking σ)} (h : Asked plugins s askings t)
    (hquiet : ∀ e ∈ plugins, e.2.origin.Quiet) : Scene.Reports s t [] := by
  induction h with
  | done s => exact .refl s
  | @next name p plugins s t u actions askings hstep rest ih =>
    obtain ⟨hp, hplugins⟩ := List.forall_mem_cons.1 hquiet
    have hfirst := PluginRoster.conduct_offersOf Call.conduct_quiet name
      (fun _ => Plugin.quiet_offers hp) s
    rw [hstep] at hfirst
    exact hfirst.trans (ih hplugins)

/-- A failing import reports nothing. -/
theorem Registry.reports_loadModule_error {shelf left : ModuleShelf σ} {name : String}
    {f : Failure} {s t u : Scene σ} {r : Registry σ}
    {ended : Except Failure (Registry σ × ModuleShelf σ)}
    (himport : (shelf.load name).runIn s = (.ok (.error f, left), t))
    (hload : (r.loadModule shelf name).runIn s = (ended, u)) : Scene.Reports t u [] := by
  rw [runIn_loadModule_error himport, Prod.mk.injEq] at hload
  rw [← hload.2]
  exact Scene.reports_logged t (not_reports_unimported name t.bound)

/-- Importing modules reports what their entries displace. -/
theorem Imported.reports {names : List String} {start : Registry σ × ModuleShelf σ}
    {s t : Scene σ} {importings : List (Importing σ)}
    {ended : Except Failure (Registry σ × ModuleShelf σ)}
    (h : Imported names start s importings ended t) (hquiet : start.2.Quiet) :
    Scene.Reports s t
      ((Registry.displaced start.1.actions (entered importings)).map Value.text) := by
  induction h with
  | done start s => exact .refl s
  | @halt name names r shelf left s t u outcome f himport hload =>
    have himported := ModuleShelf.conduct_load Call.conduct_quiet hquiet name s
    rw [himport] at himported
    cases outcome with
    | error g => exact himported.trans (Registry.reports_loadModule_error himport hload)
    | ok content =>
      rw [Registry.runIn_loadModule_ok himport] at hload
      cases hload
  | @next name names r middle shelf left s t u v outcome ended importings himport hload rest ih =>
    have hleft : left.Quiet := by
      unfold ModuleShelf.Quiet
      rw [ModuleShelf.sources_load himport]
      exact hquiet
    have himported := ModuleShelf.conduct_load Call.conduct_quiet hquiet name s
    rw [himport] at himported
    cases outcome with
    | error f =>
      have hwarned := Registry.reports_loadModule_error himport hload
      obtain ⟨-, -, -, rfl⟩ := Registry.loadModule_eq_ok himport hload
      exact himported.trans (hwarned.trans (ih hleft))
    | ok content =>
      rw [Registry.runIn_loadModule_ok himport] at hload
      cases hload
      have hentered : ∀ u : Scene σ,
          entered (⟨name, shelf, s, .ok content, left, u⟩ :: importings) =
            content.actions.map Registry.entry ++ entered importings := fun _ => rfl
      rw [hentered, Registry.displaced_append, List.map_append]
      exact himported.trans ((Scene.reports_reporting t _).trans (ih hleft))

namespace Registry

/-- Discovery reports nothing, and leaves plugins that report nothing. -/
theorem reports_ready {r : Registry σ} {discover : Bool} {roster : PluginRoster σ} {s t : Scene σ}
    (h : (r.ready discover).runIn s = (.ok roster, t)) (hquiet : r.plugins.Quiet) :
    Scene.Reports s t [] ∧ roster.Quiet := by
  unfold ready at h
  split at h
  · have hdiscover := PluginRoster.conduct_discover Call.conduct_quiet
      (fun e he => (hquiet e he).construct) s
    rw [h] at hdiscover
    refine ⟨hdiscover, ?_⟩
    intro e he
    obtain ⟨d, hd, horigin⟩ := PluginRoster.origin_discover h he
    rw [horigin]
    exact hquiet d hd
  · cases h
    exact ⟨.refl s, hquiet⟩

/-- An action contends for a name in a load: it is held under the name, a plugin offers it and no
later offer has the name, or a module exports it under the name. -/
inductive Contends (r : Registry σ) (askings : List (Asking σ)) (importings : List (Importing σ))
    (k : Value) : Action σ → Prop
  | held {a : Action σ} (h : r.get? k = some a) : Contends r askings importings k a
  | offered {name : Value} {a : Action σ} (h : (name, a) ∈ Keyed.ofPairs (offered askings))
      (hk : (entry (name, a)).1.sameKey k) : Contends r askings importings k a
  | exported {x : Importing σ} {m : ModuleContent σ} {name : Value} {a : Action σ}
      (hx : x ∈ importings) (hm : x.content? = some m) (h : (name, a) ∈ m.actions)
      (hk : (entry (name, a)).1.sameKey k) : Contends r askings importings k a

theorem contends_iff {r : Registry σ} {askings : List (Asking σ)}
    {importings : List (Importing σ)} {k : Value} {a : Action σ} :
    Contends r askings importings k a ↔
      Claims r.actions (loadEntries askings importings) k a := by
  constructor
  · intro h
    cases h with
    | held h => exact .inl h
    | offered h hk =>
      exact .inr ⟨_, List.mem_append_left _ (List.mem_map_of_mem h), hk, rfl⟩
    | @exported x m name a hx hm h hk =>
      have hentered : entry (name, a) ∈ entered importings :=
        List.mem_flatMap.2 ⟨m, List.mem_filterMap.2 ⟨x, hx, hm⟩, List.mem_map_of_mem h⟩
      exact .inr ⟨_, List.mem_append_right _ hentered, hk, rfl⟩
  · rintro (h | ⟨e, he, hk, rfl⟩)
    · exact .held h
    · rcases List.mem_append.1 he with he | he
      · obtain ⟨⟨name, a⟩, hoffered, rfl⟩ := List.mem_map.1 he
        exact .offered hoffered hk
      · obtain ⟨m, hm, he⟩ := List.mem_flatMap.1 he
        obtain ⟨x, hx, hcontent⟩ := List.mem_filterMap.1 hm
        obtain ⟨⟨name, a⟩, hexported, rfl⟩ := List.mem_map.1 he
        exact .exported hx hcontent hexported hk

end Registry

/-- A load from quiet sources reports what its entries displace. -/
theorem Loads.reports {r : Registry σ} {shelf : ModuleShelf σ} {names : List String}
    {s t : Scene σ} {askings : List (Asking σ)} {importings : List (Importing σ)}
    {ended : Except Failure (Registry σ × ModuleShelf σ)}
    (h : Loads r shelf names s askings importings ended t) (hr : r.plugins.Quiet)
    (hshelf : shelf.Quiet) :
    Scene.Reports s t
      ((Registry.displaced r.actions (loadEntries askings importings)).map Value.text) := by
  obtain ⟨hasked, hfilled, himported⟩ := h
  rename_i filled u v
  rw [Registry.runIn_registerAll_eq] at hfilled
  cases hfilled
  have hasking := hasked.reports hr
  have hfilling := Scene.reports_reporting u (Registry.displaced r.actions
    ((Keyed.ofPairs (offered askings)).map Registry.entry))
  rw [loadEntries, Registry.displaced_append, List.map_append]
  exact hasking.trans (hfilling.trans (himported.reports hshelf))

namespace Registry

/-- A load from sources that report nothing themselves reports a name exactly when two different
actions contend for it, and contending is for any two of: the action that is held under the name,
the last one that a plugin offers under it, and all that modules export under it. So it is also in a
load that ends early. -/
theorem load_reports_displaced (r : Registry σ) (shelf : ModuleShelf σ) (names : List String)
    (discover : Bool) (s : Scene σ) (hr : r.plugins.Quiet) (hshelf : shelf.Quiet) :
    ∃ roster u askings importings ended t records,
      (r.ready discover).runIn s = (.ok roster, u) ∧
      Loads { r with plugins := roster } shelf names u askings importings ended t ∧
      (r.load shelf names discover).runIn s = (ended, t) ∧
      t.journal = s.journal ++ records ∧
      (∀ k a b, Contends r askings importings k a → Contends r askings importings k b →
        a.number ≠ b.number →
          ∃ j : Value, j.sameKey k ∧ ∃ x ∈ records, x.reports j.text) ∧
      ∀ name, ∀ x ∈ records, x.reports name →
        ∃ (k : Value) (a b : Action σ), k.text = name ∧ Contends r askings importings k a ∧
          Contends r askings importings k b ∧ a.number ≠ b.number := by
  obtain ⟨roster, u, hready⟩ := returns_ready r discover s
  obtain ⟨hdiscovery, hroster⟩ := reports_ready hready hr
  obtain ⟨askings, importings, ended, t, h⟩ :=
    exists_loads { r with plugins := roster } shelf names u
  obtain ⟨records, hjournal, hcount⟩ := hdiscovery.trans (h.reports hroster hshelf)
  have hrun : (r.load shelf names discover).runIn s = (ended, t) := by
    rw [load_eq, Call.runIn_bind_ok hready]
    exact h.runIn
  refine ⟨roster, u, askings, importings, ended, t, records, hready, h, hrun, hjournal, ?_, ?_⟩
  · intro k a b ha hb hab
    obtain ⟨j, hj, hjk⟩ := exists_displaced (contends_iff.1 ha) (contends_iff.1 hb) hab
    have hpos : 0 < records.countP (LogRecord.reports j.text) := by
      rw [hcount]
      exact List.count_pos_iff.2 (List.mem_map_of_mem hj)
    exact ⟨j, hjk, List.countP_pos_iff.1 hpos⟩
  · intro name x hx hreports
    have hpos : 0 < records.countP (LogRecord.reports name) :=
      List.countP_pos_iff.2 ⟨x, hx, hreports⟩
    rw [hcount] at hpos
    obtain ⟨j, hj, hname⟩ := List.mem_map.1 (List.count_pos_iff.1 hpos)
    obtain ⟨a, b, ha, hb, hab⟩ := claims_of_displaced hj
    exact ⟨j, a, b, hname, contends_iff.2 ha, contends_iff.2 hb, hab⟩

/-- A way to greet, told from others by its number. -/
def hail (number : Nat) : Action Unit :=
  ⟨number, ⟨"Greet", "Greets someone", [], [], fun _ _ => pure .null, none, none⟩⟩

/-- Plugins that offer one way to greet each, all of them under the same name. -/
def hailers (numbers : List Nat) : Registry Unit :=
  .ofPlugins {
    plugins := numbers.map fun n =>
      (toString n, .object {
        name := "Hailer"
        construct := pure ()
        offers? := some (pure (.offers [(.str "Greet", .action (hail n))]))
        observer? := none
        offersMarked := true
        observerMarked := false })
    discovered := true }

/-- A module that defines a way to greet. -/
def hailShelf (number : Nat) : ModuleShelf Unit :=
  .ofSources [("greetings", pure ⟨[("greet", .action (hail number))], none⟩)]

theorem quiet_hailers (numbers : List Nat) : (hailers numbers).plugins.Quiet := by
  intro e he
  obtain ⟨n, -, rfl⟩ := List.mem_map.1 he
  refine ⟨Call.quiet_pure (), ?_⟩
  rintro ask ⟨⟩
  exact Call.quiet_pure _

theorem quiet_hailShelf (number : Nat) : (hailShelf number).Quiet := by
  intro e he
  obtain rfl := List.mem_singleton.1 he
  exact Call.quiet_pure _

/-- A module that displaces what a plugin offers is reported. -/
theorem greeting_displaced : ∃ last t,
    ((hailers [0]).load (hailShelf 1) ["greetings"] false).runIn (.initial ()) = (.ok last, t) ∧
      ∃ x ∈ t.journal, x.reports "Greet" := by
  obtain ⟨roster, u, askings, importings, ended, t, records, hready, h, hrun, hjournal, hall, -⟩ :=
    load_reports_displaced (hailers [0]) (hailShelf 1) ["greetings"] false (.initial ())
      (quiet_hailers [0]) (quiet_hailShelf 1)
  cases hready
  obtain ⟨hasked, hfilled, himported⟩ := h
  cases hasked with | next hstep rest
  cases rest
  cases himported with
  | halt himport hload =>
    have hfails := (loadModule_eq_error himport hload).1
    cases himport
    cases hfails
  | next himport hload rest =>
  cases rest
  cases himport
  obtain ⟨j, hj, x, hx, hreports⟩ := hall (.str "Greet") (hail 0) (hail 1)
    (.offered (List.mem_singleton.2 rfl) rfl)
    (.exported (List.mem_singleton.2 rfl) rfl (List.mem_singleton.2 rfl) rfl) (by decide)
  have hname : j = .str "Greet" := Value.sameKey_str_iff.1 hj
  refine ⟨_, _, hrun, x, ?_, ?_⟩
  · rw [hjournal]
    exact List.mem_append_right _ hx
  · rwa [hname] at hreports

/-- But an offer that a later plugin displaces is not: two plugins offer different actions under one
name, and the load leaves no record at all. -/
theorem displaced_offer_unreported : ∃ askings last t,
    Loads (hailers [0, 1]) (.ofSources []) [] (.initial ()) askings [] (.ok last) t ∧
      ((hailers [0, 1]).load (.ofSources []) [] false).runIn (.initial ()) = (.ok last, t) ∧
      offered askings = [(.str "Greet", hail 0), (.str "Greet", hail 1)] ∧
      (hail 0).number ≠ (hail 1).number ∧ t.journal = [] :=
  ⟨_, _, _, .intro (.next rfl (.next rfl (.done _))) rfl (.done _ _), rfl, rfl, by decide, rfl⟩

end Registry
end CheckedActions
