import CheckedActions.Proofs.Names
import CheckedActions.Proofs.Removal

/-!
What a registry holds after its first load. An action is found under a name if a healthy source has
contributed one, and it is the one that the last such source has contributed. Faulty sources leave a
warning if they are modules. They contribute nothing, but they are not without effect: importing a
module runs the packages around it, and makes the modules that ran attributes of these, also when
the import fails in the end.
-/

namespace CheckedActions

variable {σ : Type}

/-- The keys can name the actions: they are texts, and none is empty unless the action's own name
is. So an action's own name always can. -/
def Nameable (xs : Keyed (Action σ)) : Prop :=
  ∀ e ∈ xs, ∃ name, e.1 = .str name ∧ (name = "" → e.2.name = "")

theorem nameable_append {xs ys : Keyed (Action σ)} :
    Nameable (xs ++ ys) ↔ Nameable xs ∧ Nameable ys := List.forall_mem_append

theorem Nameable.named {xs : Keyed (Action σ)} (h : Nameable xs) : xs.Named :=
  fun e he => (h e he).imp fun _ hname => hname.1

theorem Nameable.ofPairs {xs : Keyed (Action σ)} (h : Nameable xs) : Nameable (.ofPairs xs) :=
  fun e he => h e (h.named.mem_ofPairs he)

/-- Actions are registered under keys that can name them. -/
theorem Nameable.map_entry {xs : Keyed (Action σ)} (h : Nameable xs) :
    xs.map Registry.entry = xs := by
  have hentry : ∀ e ∈ xs, Registry.entry e = e := by
    intro e he
    obtain ⟨name, hname, hempty⟩ := h e he
    unfold Registry.entry
    refine Prod.ext ?_ rfl
    split
    · rfl
    · rename_i htruthy
      have hn : name = "" := by simpa [hname, Value.truthy] using htruthy
      rw [hname, hn, hempty hn]
  exact (List.map_congr_left hentry).trans (List.map_id xs)

namespace ModuleContent

/-- The actions that a module contributes, with their names: those in its table of exports if it
has one, and otherwise all those it defines, each under its own name. -/
def contributed (m : ModuleContent σ) : Keyed (Action σ) :=
  match m.exportTable? with
  | some entries => acceptedOffers entries
  | none => m.attributes.filterMap fun
    | (_, .action a) => some (.str a.name, a)
    | _ => none

theorem actions_eq (m : ModuleContent σ) :
    m.actions = m.contributed ∨ m.actions = .ofPairs m.contributed := by
  unfold actions contributed
  cases m.exportTable? with
  | none => exact .inr rfl
  | some entries => exact .inl rfl

theorem nameable_actions {m : ModuleContent σ} (h : Nameable m.contributed) :
    Nameable m.actions := by
  rcases m.actions_eq with hm | hm
  · rwa [hm]
  · rw [hm]
    exact h.ofPairs

theorem last?_actions (m : ModuleContent σ) (k : Value) :
    m.actions.last? k = m.contributed.last? k := by
  rcases m.actions_eq with hm | hm
  · rw [hm]
  · rw [hm, (Keyed.distinct_ofPairs _).last?, Keyed.get?_ofPairs]

end ModuleContent

/-- The actions that modules contribute in the order of their import, those that were imported. -/
def exported (importings : List (Importing σ)) : Keyed (Action σ) :=
  (importings.filterMap Importing.content?).flatMap ModuleContent.contributed

/-- The entries made of modules have keys that can name them, and the last one under a key is the
last that was contributed. -/
theorem entered_of_nameable {importings : List (Importing σ)} (h : Nameable (exported importings)) :
    Nameable (entered importings) ∧
      ∀ k, (entered importings).last? k = (exported importings).last? k := by
  unfold entered
  unfold exported at h ⊢
  generalize importings.filterMap Importing.content? = ms at h ⊢
  induction ms with
  | nil => exact ⟨h, fun _ => rfl⟩
  | cons m ms ih =>
    rw [List.flatMap_cons] at h
    obtain ⟨hm, hms⟩ := nameable_append.1 h
    obtain ⟨ihn, ihlast⟩ := ih hms
    have hactions := ModuleContent.nameable_actions hm
    rw [List.flatMap_cons, List.flatMap_cons, hactions.map_entry]
    refine ⟨nameable_append.2 ⟨hactions, ihn⟩, fun k => ?_⟩
    rw [Keyed.last?_append, Keyed.last?_append, ihlast, ModuleContent.last?_actions]

/-- What the healthy sources of a load contribute, plugins before modules. -/
def contributions (askings : List (Asking σ)) (importings : List (Importing σ)) :
    Keyed (Action σ) :=
  offered askings ++ exported importings

/-- The names of a registry ascend, and going through the registry follows them. -/
def Registry.Ordered (r : Registry σ) : Prop :=
  ∃ (names : List String) (sorted : Keyed (Action σ)),
    r.names = .ok (names.map .str) ∧ names.Pairwise (· < ·) ∧
    r.sorted = .ok sorted ∧ sorted.keys = names.map .str ∧
    ∀ name a, r.get? (.str name) = some a ↔ (.str name, a) ∈ sorted

theorem Registry.ordered_of_named {r : Registry σ} (h : r.actions.Named)
    (hd : r.actions.Distinct) : r.Ordered := by
  obtain ⟨sorted, hsorted, hperm, hkeys, hascend⟩ := h.sort hd
  refine ⟨sorted.map (·.1.text), sorted, ?_, hascend, hsorted, hkeys, fun name a => ?_⟩
  · rw [Registry.names, Registry.sorted, hsorted, ← hkeys]
    rfl
  · rw [Registry.get?, Keyed.get?_str_eq_some_iff hd, hperm.mem_iff]

/-! ### A first load -/

section Load

variable {plugins : PluginRoster σ} {shelf : ModuleShelf σ} {names : List String}
  {s t : Scene σ} {askings : List (Asking σ)} {importings : List (Importing σ)}
  {last : Registry σ × ModuleShelf σ}

theorem loadEntries_of_nameable (h : Nameable (contributions askings importings)) :
    Nameable (loadEntries askings importings) ∧
      ∀ k, (loadEntries askings importings).last? k =
        (contributions askings importings).last? k := by
  obtain ⟨hoffered, hexported⟩ := nameable_append.1 h
  obtain ⟨hentered, hlast⟩ := entered_of_nameable hexported
  unfold loadEntries contributions
  rw [hoffered.ofPairs.map_entry]
  refine ⟨nameable_append.2 ⟨hoffered.ofPairs, hentered⟩, fun k => ?_⟩
  rw [Keyed.last?_append, Keyed.last?_append, hlast, (Keyed.distinct_ofPairs _).last?,
    Keyed.get?_ofPairs]

theorem Loads.actions_eq
    (h : Loads (.ofPlugins plugins) shelf names s askings importings (.ok last) t) :
    last.1.actions = .ofPairs (loadEntries askings importings) := h.actions

theorem Loads.get?
    (h : Loads (.ofPlugins plugins) shelf names s askings importings (.ok last) t)
    (hn : Nameable (contributions askings importings)) (k : Value) :
    last.1.get? k = (contributions askings importings).last? k := by
  rw [Registry.get?, h.actions_eq, Keyed.get?_ofPairs, (loadEntries_of_nameable hn).2]

theorem Loads.ordered
    (h : Loads (.ofPlugins plugins) shelf names s askings importings (.ok last) t)
    (hn : Nameable (contributions askings importings)) : last.1.Ordered := by
  have hentries := (loadEntries_of_nameable hn).1
  refine Registry.ordered_of_named ?_ ?_
  · rw [h.actions_eq]
    exact hentries.ofPairs.named
  · rw [h.actions_eq]
    exact Keyed.distinct_ofPairs _

end Load

namespace Registry

/-- A first load collects the actions of its sources. Each plugin is asked once and each module
imported once, in their order. That ends whatever the sources do, unless a module fails with what
cannot be told: then it ends with that module, and without a registry. Otherwise every module that
could not be imported leaves a warning. If keys are names, what is found under a name is what the
last healthy source has contributed under it, plugins before modules; the names ascend, and going
through the registry follows them. If no source reads the journal, faulty sources that have changed
nothing else can be left out, any number of them, and the same is found under every name. -/
theorem load_collects (plugins : PluginRoster σ) (shelf : ModuleShelf σ) (names : List String)
    (discover : Bool) (s : Scene σ) :
    ∃ roster u askings importings ended t,
      ((ofPlugins plugins).ready discover).runIn s = (.ok roster, u) ∧
      Loads (.ofPlugins roster) shelf names u askings importings ended t ∧
      ((ofPlugins plugins).load shelf names discover).runIn s = (ended, t) ∧
      askedPlugins askings = roster.plugins ∧ importings.map (·.name) <+: names ∧
      (ended.isOk ↔ ∀ x ∈ importings, x.isTold) ∧ (∀ f, ended = .error f → f = .tooLongToWrite) ∧
      ∀ last, ended = .ok last →
        importings.map (·.name) = names ∧
        last.1.warnings = importings.filterMap Importing.warning? ∧
        (Nameable (contributions askings importings) →
          (∀ k, last.1.get? k = (contributions askings importings).last? k) ∧
          last.1.Ordered ∧
          ((∀ e ∈ roster.plugins, e.2.IgnoresJournal) → shelf.IgnoresJournal →
            ∀ keepAsking keepImport, (∀ x ∈ askings, keepAsking x = false → x.Idle) →
              (∀ x ∈ importings, keepImport x = false → x.Idle) →
              ∃ last' t',
                ((ofPlugins ⟨askedPlugins (askings.filter keepAsking), true⟩).load shelf
                  ((importings.filter keepImport).map (·.name)) discover).runIn u =
                    (.ok last', t') ∧
                ∀ k, last'.1.get? k = last.1.get? k)) := by
  obtain ⟨roster, u, hready⟩ := returns_ready (ofPlugins plugins) discover s
  obtain ⟨askings, importings, ended, t, h⟩ := exists_loads (.ofPlugins roster) shelf names u
  have hrun : ((ofPlugins plugins).load shelf names discover).runIn s = (ended, t) := by
    rw [load_eq, Call.runIn_bind_ok hready]
    exact h.runIn
  refine ⟨roster, u, askings, importings, ended, t, hready, h, hrun, h.plugins_eq, h.names_eq.1,
    h.isOk_iff, fun f hf => h.failure hf, ?_⟩
  rintro last rfl
  refine ⟨h.names_eq.2 rfl, h.warnings, fun hn => ⟨h.get? hn, h.ordered hn, ?_⟩⟩
  intro hp hm keepAsking keepImport haskings himports
  obtain ⟨askings', importings', last', t', h', hoffered, hcontents⟩ :=
    h.leaveOut hp hm haskings himports (.ofPlugins ⟨askedPlugins (askings.filter keepAsking), true⟩)
      rfl
  have hsame : contributions askings' importings' = contributions askings importings := by
    rw [contributions, hoffered, exported, hcontents]
    rfl
  refine ⟨last', t', ?_, fun k => ?_⟩
  · rw [load_eq, ← h'.runIn]
    cases discover <;> rfl
  · rw [h'.get? (hsame ▸ hn), h.get? hn, hsame]

/-- An action that is an attribute of a package. -/
def fillCart : Action Unit :=
  ⟨0, ⟨"FillCart", "Fills a cart", [], [], fun _ _ => pure .null, none, none⟩⟩

/-- A package with a module that has the name of one of its attributes, and a failing module
behind it. -/
def shopShelf : ModuleShelf Unit :=
  .ofSources [("shop", pure ⟨[("cart", .action fillCart)], none⟩), ("shop.cart", pure .empty),
    ("shop.cart.broken", throw (.host "RuntimeError" [.str "broken module"]))]

/-- The registry that loading modules of the package gives. -/
def shopRegistry (names : List String) : Except Failure (Registry Unit) :=
  (((ofPlugins .empty).load shopShelf names false).runIn (.initial ())).1.map (·.1)

/-- A module that cannot be imported takes an action away all the same: the action is there when
only the package is loaded, and is gone when the failing module is loaded before. -/
theorem broken_module_hides_action :
    (shopRegistry ["shop"]).map (fun r => ((r.get? (.str "FillCart")).isSome, r.warnings)) =
      .ok (true, []) ∧
    (shopRegistry ["shop.cart.broken", "shop"]).map
        (fun r => ((r.get? (.str "FillCart")).isSome, r.warnings)) =
      .ok (false, ["Could not import action module shop.cart.broken: broken module"]) := by
  exact ⟨rfl, rfl⟩

end Registry
end CheckedActions
