import CheckedActions.Proofs.Codes
import CheckedActions.Proofs.Names
import CheckedActions.Proofs.Sources

/-!
What is listed and what can be used. Actions are found by the name they are registered under, and
every such name can be used, after any sequence of registering and loading. But a listing shows the
names that actions have themselves. So what is listed can be used exactly when every action is
registered under its own name.
-/

namespace CheckedActions

variable {σ : Type}

namespace Registry

/-- The registries that registering actions and loading from sources lead to, one call after
another, with the entries that were made on the way. -/
inductive Reached : Keyed (Action σ) → Registry σ → Prop
  | start (plugins : PluginRoster σ) : Reached [] (.ofPlugins plugins)
  | register {entries : Keyed (Action σ)} {r r' : Registry σ} {a : Action σ} {name : Value}
      {s t : Scene σ} (h : Reached entries r)
      (hregister : (r.register a name).runIn s = (.ok r', t)) :
      Reached (entries ++ [entry (name, a)]) r'
  | load {entries : Keyed (Action σ)} {r : Registry σ} {plugins : PluginRoster σ}
      {shelf : ModuleShelf σ} {names : List String} {discover : Bool} {s t u : Scene σ}
      {askings : List (Asking σ)} {importings : List (Importing σ)}
      {last : Registry σ × ModuleShelf σ} (h : Reached entries r)
      (hready : (r.ready discover).runIn s = (.ok plugins, u))
      (hload : Loads { r with plugins } shelf names u askings importings (.ok last) t) :
      Reached (entries ++ loadEntries askings importings) last.1

theorem Reached.actions {entries : Keyed (Action σ)} {r : Registry σ} (h : Reached entries r) :
    r.actions = .ofPairs entries := by
  induction h with
  | start plugins => rfl
  | @register entries r r' a name s t h hregister ih =>
    obtain ⟨t', ht', -⟩ := r.runIn_register a name s
    rw [hregister] at ht'
    cases ht'
    rw [Keyed.ofPairs_append, ← ih]
    rfl
  | load h hready hload ih =>
    rw [hload.actions, Keyed.ofPairs_append, ← ih]

theorem Reached.distinct {entries : Keyed (Action σ)} {r : Registry σ} (h : Reached entries r) :
    r.actions.Distinct := by
  rw [h.actions]
  exact Keyed.distinct_ofPairs entries

/-- All actions are registered under their own names. -/
def OwnNames (actions : Keyed (Action σ)) : Prop := ∀ e ∈ actions, e.1 = .str e.2.name

theorem OwnNames.named {actions : Keyed (Action σ)} (h : OwnNames actions) : actions.Named :=
  fun e he => ⟨e.2.name, h e he⟩

/-- Entries under own names leave no other ones. -/
theorem Reached.ownNames {entries : Keyed (Action σ)} {r : Registry σ} (h : Reached entries r)
    (ho : OwnNames entries) : OwnNames r.actions := by
  rw [h.actions]
  exact fun e he => ho e (ho.named.mem_ofPairs he)

end Registry

namespace Service

/-- The data of a listing of names with descriptions. -/
def listing (items : List (String × String)) : List (String × Value) :=
  [("count", .int items.length),
   ("items", .list (items.map fun (name, description) =>
      Value.record [("name", .str name), ("description", .str description)]))]

/-- What a listing shows of an action. -/
def shownAs (a : Action σ) : String × String := (a.name, a.description)

theorem list_eq (r : Registry σ) : list r = r.sorted.map fun sorted =>
    { ok := true, op := "list_actions", warnings := r.warnings
      data := listing (sorted.map fun e => shownAs e.2) } := by
  unfold list listing
  refine congrArg (fun f => r.sorted.map f) (funext fun sorted => ?_)
  simp [shownAs]

/-- All that is listed can be used: no name comes twice, each is described with the description
that is listed with it, and a run of none is answered as one of an unknown name. -/
structure Usable (r : Registry σ) (items : List (String × String)) : Prop where
  distinct : (items.map (·.1)).Nodup
  described : ∀ item ∈ items, ∃ result, describe r item.1 = .ok result ∧ result.ok ∧
    result.data.lookup "name" = some (.str item.1) ∧
    result.data.lookup "description" = some (.str item.2)
  known : ∀ item ∈ items, ∀ jacks props s,
    ¬ HasCode ((run r item.1 jacks props).runIn s).1 "UNKNOWN_ACTION"

theorem describe_of_known {r : Registry σ} {name : String} {a : Action σ}
    (h : r.get? (.str name) = some a) :
    describe r name = .ok { ok := true, op := "describe_action", data := a.describe } := by
  unfold describe
  rw [h]

/-- A run of a known action is never answered as one of an unknown name. -/
theorem known_of_get? {r : Registry σ} {name : String} {a : Action σ}
    (h : r.get? (.str name) = some a) (jacks props : Value) (s : Scene σ) :
    ¬ HasCode ((run r name jacks props).runIn s).1 "UNKNOWN_ACTION" := by
  rintro ⟨result, hresult, hcode⟩
  obtain ⟨ending, warnings, -, hending⟩ := ending_of_run h rfl hresult
  rw [Ending.code?_of_result hending] at hcode
  cases ending <;> simp at hcode

/-- What is described is known. -/
theorem get?_of_described {r : Registry σ} {name : String} {result : ServiceResult}
    (h : describe r name = .ok result) (hok : result.ok) :
    ∃ a, r.get? (.str name) = some a ∧ result.data = a.describe := by
  unfold describe at h
  cases ha : r.get? (.str name) with
  | some a =>
    rw [ha] at h
    cases h
    exact ⟨a, rfl, rfl⟩
  | none =>
    rw [ha] at h
    obtain ⟨names, -, rfl⟩ := map_eq_ok_iff.1 h
    nomatch hok

theorem usable_of_ownNames {r : Registry σ} (hd : r.actions.Distinct)
    (ho : Registry.OwnNames r.actions) {sorted : Keyed (Action σ)} (hp : sorted.Perm r.actions) :
    Usable r (sorted.map fun e => shownAs e.2) := by
  have hget : ∀ e ∈ sorted, r.get? (.str e.2.name) = some e.2 := by
    intro e he
    have he := hp.mem_iff.1 he
    rw [Registry.get?, Keyed.get?_str_eq_some_iff hd, ← ho e he]
    exact he
  refine ⟨?_, ?_, ?_⟩
  · have hnames : r.actions.map (fun e => e.2.name) = r.actions.map (·.1.text) :=
      List.map_congr_left fun e he => by rw [ho e he]; rfl
    have hnodup : (r.actions.map fun e => e.2.name).Nodup := by
      rw [hnames]
      exact ho.named.nodup hd
    rw [List.map_map]
    exact (hp.map _).nodup_iff.2 hnodup
  · rw [List.forall_mem_map]
    intro e he
    exact ⟨_, describe_of_known (hget e he), rfl, rfl, rfl⟩
  · rw [List.forall_mem_map]
    intro e he
    exact known_of_get? (hget e he)

/-- When actions have different names, an entry is known by the name of its action. -/
theorem entry_unique {actions : Keyed (Action σ)} (h : (actions.map fun e => e.2.name).Nodup)
    {d e : Value × Action σ} (hd : d ∈ actions) (he : e ∈ actions) (hde : d.2.name = e.2.name) :
    d = e := by
  obtain ⟨i, hi, rfl⟩ := List.mem_iff_getElem.1 hd
  obtain ⟨j, hj, rfl⟩ := List.mem_iff_getElem.1 he
  have hi' : i < (actions.map fun e => e.2.name).length := by simpa using hi
  have hj' : j < (actions.map fun e => e.2.name).length := by simpa using hj
  have hnames : (actions.map fun e => e.2.name)[i] = (actions.map fun e => e.2.name)[j] := by
    rw [List.getElem_map, List.getElem_map]
    exact hde
  cases (List.getElem_inj h).1 hnames
  rfl

theorem ownNames_of_usable {r : Registry σ} (hd : r.actions.Distinct)
    {sorted : Keyed (Action σ)} (hp : sorted.Perm r.actions)
    (hu : Usable r (sorted.map fun e => shownAs e.2)) : Registry.OwnNames r.actions := by
  have hnodup : (r.actions.map fun e => e.2.name).Nodup := by
    have hnames := hu.distinct
    rw [List.map_map] at hnames
    exact (hp.map _).nodup_iff.1 hnames
  intro e he
  have hitem : shownAs e.2 ∈ sorted.map fun e => shownAs e.2 :=
    List.mem_map.2 ⟨e, hp.mem_iff.2 he, rfl⟩
  obtain ⟨result, hresult, hok, hname, -⟩ := hu.described _ hitem
  obtain ⟨b, hb, hdata⟩ := get?_of_described hresult hok
  rw [hdata] at hname
  have hsame : b.name = e.2.name := by
    simpa [Action.describe, shownAs, Action.name] using hname
  -- The action found under the listed name is the listed one, because no other has its name.
  have hmem : ((.str e.2.name, b) : Value × Action σ) ∈ r.actions :=
    (Keyed.get?_str_eq_some_iff hd).1 hb
  rw [← entry_unique hnodup hmem he hsame]
  exact congrArg Value.str hsame.symm

/-- What can be used after any sequence of registering and loading. Every registered name can be,
and no two names are the same. If there is a listing, then all that it lists can be used exactly
when all actions are registered under their own names, which is so if every entry has been made that
way. -/
theorem listed_usable_iff {entries : Keyed (Action σ)} {r : Registry σ}
    (h : r.Reached entries) :
    r.actions.Distinct ∧
    (∀ name a, (.str name, a) ∈ r.actions →
      describe r name = .ok { ok := true, op := "describe_action", data := a.describe } ∧
      ∀ jacks props s, ¬ HasCode ((run r name jacks props).runIn s).1 "UNKNOWN_ACTION") ∧
    (∀ result, list r = .ok result → ∃ items,
      result.data = listing items ∧ (Usable r items ↔ Registry.OwnNames r.actions)) ∧
    (Registry.OwnNames entries → Registry.OwnNames r.actions) := by
  have hd := h.distinct
  refine ⟨hd, ?_, ?_, h.ownNames⟩
  · intro name a ha
    have hget : r.get? (.str name) = some a := (Keyed.get?_str_eq_some_iff hd).2 ha
    exact ⟨describe_of_known hget, known_of_get? hget⟩
  · intro result hresult
    rw [list_eq] at hresult
    obtain ⟨sorted, hsorted, rfl⟩ := map_eq_ok_iff.1 hresult
    have hperm := Keyed.sort_perm hsorted
    exact ⟨_, rfl, ownNames_of_usable hd hperm, fun ho => usable_of_ownNames hd ho hperm⟩

/-- An action registered without a name can be used as it is listed. -/
theorem greeting_usable : ∃ result items, list greetRegistry = .ok result ∧
    result.data = listing items ∧ Usable greetRegistry items := by
  have hreached : greetRegistry.Reached [(.str "Greet", Action.greeter)] :=
    .register (t := .initial ()) (.start .empty)
      (rfl : ((Registry.ofPlugins .empty).register Action.greeter .null).runIn (.initial ()) = _)
  have howned : Registry.OwnNames [(.str "Greet", Action.greeter)] := fun e he => by
    rw [List.mem_singleton.1 he]
    rfl
  obtain ⟨result, hresult⟩ : ∃ result, list greetRegistry = .ok result := ⟨_, rfl⟩
  obtain ⟨-, -, hlist, hown⟩ := listed_usable_iff hreached
  obtain ⟨items, hitems, husable⟩ := hlist result hresult
  exact ⟨result, items, hresult, hitems, husable.2 (hown howned)⟩

/-- The registry in which that action is registered under another name. -/
def welcomeRegistry : Registry Unit := ⟨.empty, [(.str "welcome", Action.greeter)], []⟩

/-- An action is listed under a name that no operation knows. -/
theorem listed_greeting_unknown :
    welcomeRegistry.Reached [(.str "welcome", Action.greeter)] ∧
    (list welcomeRegistry).map (·.data) = .ok (listing [("Greet", "Greets someone by name")]) ∧
    (describe welcomeRegistry "Greet").map (·.code?) = .ok (some "UNKNOWN_ACTION") ∧
    ((run welcomeRegistry "Greet" .null .null).runIn (.initial ())).1.map (·.code?) =
      .ok (some "UNKNOWN_ACTION") := by
  have hreached : welcomeRegistry.Reached [(.str "welcome", Action.greeter)] :=
    .register (t := .initial ()) (.start .empty)
      (rfl : ((Registry.ofPlugins .empty).register Action.greeter (.str "welcome")).runIn
        (.initial ()) = _)
  have hlist : (list welcomeRegistry).map (·.data) =
      .ok (listing [("Greet", "Greets someone by name")]) := by
    rw [list_eq, Registry.sorted, welcomeRegistry, Keyed.sort_singleton]
    rfl
  exact ⟨hreached, hlist, rfl, rfl⟩

end Service
end CheckedActions
