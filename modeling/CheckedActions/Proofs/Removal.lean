import CheckedActions.Proofs.Conduct

/-!
Leaving sources out of a load. A source is idle when it contributes nothing and leaves all but the
journal as it is. When no source reads the journal, a load without some idle sources goes as the
load with them, and the other sources contribute the same.
-/

namespace CheckedActions

variable {σ : Type}

/-! ### Plugins -/

/-- The plugin offers its actions without reading the journal. -/
def Plugin.IgnoresJournal (p : Plugin σ) : Prop :=
  ∀ ask, p.offers? = some ask → ask.IgnoresJournal

theorem Plugin.IgnoresJournal.answer? {p : Plugin σ} (h : p.IgnoresJournal) {s t : Scene σ}
    (hst : s.Alike t) : p.answer? s = p.answer? t := by
  unfold Plugin.answer?
  cases hask : p.offers? with
  | none => rfl
  | some ask =>
    dsimp only
    rw [(h ask hask s t hst).1]

theorem Call.conduct_ignoresJournal : Call.Conduct (@Call.IgnoresJournal σ) where
  pure := Call.ignoresJournal_pure
  bind := Call.IgnoresJournal.bind
  attempt := Call.IgnoresJournal.attempt
  log level event := Call.ignoresJournal_log level _ event

/-- The plugin is faulty, and asking it changes nothing but the journal. -/
def Asking.Idle (x : Asking σ) : Prop := x.answer? = none ∧ x.before.Alike x.after

/-- Asking goes on without idle plugins as it goes on with them. -/
theorem Asked.leaveOut {plugins : List (String × Plugin σ)} {s t : Scene σ}
    {askings : List (Asking σ)} (h : Asked plugins s askings t)
    (hj : ∀ e ∈ plugins, e.2.IgnoresJournal) {keep : Asking σ → Bool}
    (hidle : ∀ x ∈ askings, keep x = false → x.Idle) {s' : Scene σ} (hs : s.Alike s') :
    ∃ askings' t', Asked (askedPlugins (askings.filter keep)) s' askings' t' ∧
      t.Alike t' ∧ offered askings' = offered askings := by
  induction h generalizing s' with
  | done s => exact ⟨[], s', .done s', hs, rfl⟩
  | @next name p plugins s t u actions askings hstep rest ih =>
    obtain ⟨hp, hplugins⟩ := List.forall_mem_cons.1 hj
    obtain ⟨hx, hxs⟩ := List.forall_mem_cons.1 hidle
    cases hkeep : keep ⟨name, p, s, t⟩ with
    | true =>
      obtain ⟨t', hstep', ht⟩ :=
        (PluginRoster.conduct_offersOf Call.conduct_ignoresJournal name hp).runIn hstep hs
      obtain ⟨askings', u', hasked, hu, hoffered⟩ := ih hplugins hxs ht
      refine ⟨⟨name, p, s', t'⟩ :: askings', u', ?_, hu, ?_⟩
      · rw [List.filter_cons_of_pos hkeep]
        exact .next hstep' hasked
      · rw [offered_cons, offered_cons, hoffered]
        exact congrArg (fun answer => acceptedOffers (answer.getD []) ++ offered askings)
          (hp.answer? hs).symm
    | false =>
      obtain ⟨hfaulty, hst⟩ := hx hkeep
      obtain ⟨askings', u', hasked, hu, hoffered⟩ := ih hplugins hxs (hst.symm.trans hs)
      refine ⟨askings', u', ?_, hu, ?_⟩
      · rw [List.filter_cons_of_neg (by simp [hkeep])]
        exact hasked
      · rw [offered_cons, hfaulty, hoffered]
        rfl

/-! ### Modules -/

namespace ModuleShelf

/-- The modules run without reading the journal. -/
def IgnoresJournal (shelf : ModuleShelf σ) : Prop := ∀ e ∈ shelf.sources, e.2.IgnoresJournal

theorem IgnoresJournal.load {shelf : ModuleShelf σ} (h : shelf.IgnoresJournal) (name : String) :
    (shelf.load name).IgnoresJournal := conduct_load Call.conduct_ignoresJournal h name

end ModuleShelf

/-- The import fails, and changes nothing but the journal. -/
def Importing.Idle (x : Importing σ) : Prop :=
  x.content? = none ∧ x.left = x.shelf ∧ x.before.Alike x.after

/-- Importing goes on without modules that are idle as it goes on with them. -/
theorem Imported.leaveOut {names : List String} {start : Registry σ × ModuleShelf σ}
    {s t : Scene σ} {importings : List (Importing σ)}
    {ended : Except Failure (Registry σ × ModuleShelf σ)}
    (h : Imported names start s importings ended t) (hok : ended.isOk)
    (hj : start.2.IgnoresJournal)
    {keep : Importing σ → Bool} (hidle : ∀ x ∈ importings, keep x = false → x.Idle)
    (r' : Registry σ) {s' : Scene σ} (hs : s.Alike s') :
    ∃ importings' last' t',
      Imported ((importings.filter keep).map (·.name)) (r', start.2) s' importings' (.ok last') t' ∧
      importings'.filterMap Importing.content? = importings.filterMap Importing.content? := by
  induction h generalizing r' s' with
  | done start s => exact ⟨[], (r', start.2), s', .done _ s', rfl⟩
  | halt himport hload => cases hok
  | @next name names r middle shelf left s t u v outcome ended importings himport hload rest ih =>
    obtain ⟨hx, hxs⟩ := List.forall_mem_cons.1 hidle
    have hleft : left.IgnoresJournal := by
      unfold ModuleShelf.IgnoresJournal
      rw [ModuleShelf.sources_load himport]
      exact hj
    obtain ⟨htold, htu, -, -⟩ := Registry.loadModule_eq_ok himport hload
    cases hkeep : keep ⟨name, shelf, s, outcome, left, u⟩ with
    | true =>
      obtain ⟨t', himport', ht⟩ := (hj.load name).runIn himport hs
      obtain ⟨outcome₂, left₂, t₂, u', himport₂, htu', hload'⟩ :=
        r'.runIn_loadModule shelf name s'
      rw [himport'] at himport₂
      cases himport₂
      rw [if_pos (show (Importing.mk name shelf s' outcome left u').isTold from htold)] at hload'
      obtain ⟨importings', last', v', himported, hcontents⟩ :=
        ih hok hleft hxs _ ((htu.symm.trans ht).trans htu')
      refine ⟨⟨name, shelf, s', outcome, left, u'⟩ :: importings', last', v', ?_, ?_⟩
      · rw [List.filter_cons_of_pos hkeep]
        exact .next himport' hload' himported
      · rw [List.filterMap_cons, List.filterMap_cons, hcontents]
        rfl
    | false =>
      obtain ⟨hfaulty, hshelf, hsu⟩ := hx hkeep
      obtain ⟨importings', last', v', himported, hcontents⟩ :=
        ih hok hleft hxs r' (hsu.symm.trans hs)
      refine ⟨importings', last', v', ?_, ?_⟩
      · rw [List.filter_cons_of_neg (by simp [hkeep]), ← show left = shelf from hshelf]
        exact himported
      · rw [List.filterMap_cons_none hfaulty, hcontents]

/-! ### Loads -/

/-- A load goes on without idle sources as it goes on with them: there is one from the sources that
are kept, in which they contribute what they contributed before. -/
theorem Loads.leaveOut {r : Registry σ} {shelf : ModuleShelf σ} {names : List String}
    {s t : Scene σ} {askings : List (Asking σ)} {importings : List (Importing σ)}
    {last : Registry σ × ModuleShelf σ} (h : Loads r shelf names s askings importings (.ok last) t)
    (hp : ∀ e ∈ r.plugins.plugins, e.2.IgnoresJournal) (hm : shelf.IgnoresJournal)
    {keepAsking : Asking σ → Bool} {keepImport : Importing σ → Bool}
    (haskings : ∀ x ∈ askings, keepAsking x = false → x.Idle)
    (himports : ∀ x ∈ importings, keepImport x = false → x.Idle) (r' : Registry σ)
    (hr' : r'.plugins.plugins = askedPlugins (askings.filter keepAsking)) :
    ∃ askings' importings' last' t',
      Loads r' shelf ((importings.filter keepImport).map (·.name)) s askings' importings'
        (.ok last') t' ∧
      offered askings' = offered askings ∧
      importings'.filterMap Importing.content? = importings.filterMap Importing.content? := by
  obtain ⟨hasked, hfilled, himported⟩ := h
  rename_i filled u v
  obtain ⟨filled', hfilled', huv⟩ := r.runIn_registerAll (.ofPairs (offered askings)) u
  rw [hfilled] at hfilled'
  cases hfilled'
  obtain ⟨askings', u', hasked', hu, hoffered⟩ := hasked.leaveOut hp haskings (.refl s)
  obtain ⟨v', hv', huv'⟩ := r'.runIn_registerAll (.ofPairs (offered askings')) u'
  obtain ⟨importings', last', t', himported', hcontents⟩ :=
    himported.leaveOut rfl hm himports _ ((huv.symm.trans hu).trans huv')
  rw [← hr'] at hasked'
  exact ⟨askings', importings', last', t', .intro hasked' hv' himported', hoffered, hcontents⟩

end CheckedActions
