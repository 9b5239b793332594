import CheckedActions.Validator.Workbench

/-!
The cells of a bench. The fields of a shape lie in a cell that no table has, and refer to older such
cells only. Copying a dictionary, naming a validator and setting an entry of a table all leave these
cells as they are, and what a validator stands for depends on no other cells.
-/

namespace CheckedActions

variable {σ : Type}

/-- The addresses in a step satisfy a property. -/
def BenchStep.Within (P : Nat → Prop) : BenchStep σ → Prop
  | made _ => True
  | fieldsAt a => P a

def BenchField.Within (P : Nat → Prop) : BenchField σ → Prop
  | made _ => True
  | chain steps => ∀ x ∈ steps, x.Within P

theorem BenchStep.Within.mono {P Q : Nat → Prop} {x : BenchStep σ} (h : x.Within P)
    (hPQ : ∀ a, P a → Q a) : x.Within Q := by
  cases x with
  | made s => trivial
  | fieldsAt a => exact hPQ a h

theorem BenchField.Within.mono {P Q : Nat → Prop} {f : BenchField σ} (h : f.Within P)
    (hPQ : ∀ a, P a → Q a) : f.Within Q := by
  cases f with
  | made f => trivial
  | chain steps => exact fun x hx => (h x hx).mono hPQ

namespace Workbench

/-- The cell at an address belongs to no table. -/
def Kept (w : Workbench σ) (a : Nat) : Prop := a < w.cells.length ∧ ∀ e ∈ w.tables, e.2 ≠ a

/-- Validators and dictionaries refer to cells that belong to no table, and the dictionaries in such
cells to older ones only. -/
structure Sound (w : Workbench σ) : Prop where
  items : ∀ {name i}, w.items.lookup name = some i → ∀ x ∈ i.steps, x.Within w.Kept
  cells : ∀ cell ∈ w.cells, ∀ e ∈ cell, e.2.Within w.Kept
  older : ∀ {a}, w.Kept a → ∀ cell, w.cells[a]? = some cell → ∀ e ∈ cell, e.2.Within (· < a)
  tables : ∀ e ∈ w.tables, e.2 < w.cells.length

/-- A bench has the cells of another one that belong to no table there. -/
def Keeps (w w' : Workbench σ) : Prop :=
  ∀ a, w.Kept a → w'.Kept a ∧ w'.cells[a]? = w.cells[a]?

theorem Keeps.refl (w : Workbench σ) : w.Keeps w := fun _ h => ⟨h, rfl⟩

theorem Keeps.trans {w v u : Workbench σ} (hwv : w.Keeps v) (hvu : v.Keeps u) : w.Keeps u := by
  intro a ha
  obtain ⟨hv, hcell⟩ := hwv a ha
  obtain ⟨hu, hcell'⟩ := hvu a hv
  exact ⟨hu, hcell'.trans hcell⟩

theorem Sound.within {w : Workbench σ} (h : w.Sound) {a : Nat} (ha : w.Kept a) {cell : FieldCell σ}
    (hcell : w.cells[a]? = some cell) {e : String × BenchField σ} (he : e ∈ cell) :
    e.2.Within fun b => w.Kept b ∧ b < a := by
  have hkept := h.cells cell (List.mem_of_getElem? hcell) e he
  have holder := h.older ha cell hcell e he
  rcases e with ⟨key, f | steps⟩
  · trivial
  · intro x hx
    cases x with
    | made s => trivial
    | fieldsAt b => exact ⟨hkept _ hx, holder _ hx⟩

/-- Steps stand for the same on benches with the same cells, however far addresses are followed. -/
theorem Keeps.follow {w w' : Workbench σ} (hk : w.Keeps w') (hs : w.Sound) {depth depth' : Nat}
    {x : BenchStep σ} (hx : x.Within fun a => w.Kept a ∧ a < depth ∧ a < depth') :
    x.follow w'.cells depth' = x.follow w.cells depth := by
  -- A cell refers to smaller addresses only, so both depths stay above the address as they go down.
  induction depth generalizing depth' x with
  | zero =>
    cases x with
    | made s => cases depth' <;> rfl
    | fieldsAt a => exact absurd hx.2.1 (Nat.not_lt_zero a)
  | succ depth ih =>
    cases x with
    | made s => cases depth' <;> rfl
    | fieldsAt a =>
      obtain ⟨ha, hdepth, hdepth'⟩ := hx
      cases depth' with
      | zero => exact absurd hdepth' (Nat.not_lt_zero a)
      | succ depth' =>
        obtain ⟨cell, hcell⟩ : ∃ cell, w.cells[a]? = some cell := ⟨_, List.getElem?_eq_getElem ha.1⟩
        have hcell' : w'.cells[a]? = some cell := (hk a ha).2.trans hcell
        simp only [BenchStep.follow, hcell, hcell', Option.getD_some, Step.fields.injEq]
        apply List.map_congr_left
        intro e he
        have hwithin := hs.within ha hcell he
        rcases e with ⟨key, f | steps⟩
        · rfl
        · have hsteps : ∀ x ∈ steps, x.follow w'.cells depth' = x.follow w.cells depth :=
            fun x hx => ih ((hwithin x hx).mono fun b hb => ⟨hb.1, by omega, by omega⟩)
          simp only [List.map_congr_left hsteps]

theorem Keeps.validatorOf {w w' : Workbench σ} (hk : w.Keeps w') (hs : w.Sound)
    {steps : List (BenchStep σ)} (h : ∀ x ∈ steps, x.Within w.Kept) :
    w'.validatorOf steps = w.validatorOf steps := by
  apply List.map_congr_left
  intro x hx
  exact hk.follow hs ((h x hx).mono fun a ha => ⟨ha, ha.1, (hk a ha).1.1⟩)

theorem Keeps.fieldsOf {w w' : Workbench σ} (hk : w.Keeps w') (hs : w.Sound) {cell : FieldCell σ}
    (h : ∀ e ∈ cell, e.2.Within w.Kept) : w'.fieldsOf cell = w.fieldsOf cell := by
  apply List.map_congr_left
  intro e he
  rcases e with ⟨key, f | steps⟩
  · rfl
  · simp only [hk.validatorOf hs (h _ he)]

theorem validatorOf_append (w : Workbench σ) (xs ys : List (BenchStep σ)) :
    w.validatorOf (xs ++ ys) = w.validatorOf xs ++ w.validatorOf ys := List.map_append

theorem validatorOf_made (w : Workbench σ) (steps : Validator σ) :
    w.validatorOf (steps.map .made) = steps := by
  have hmade : BenchStep.follow w.cells w.cells.length ∘ BenchStep.made = id := by
    funext s
    cases w.cells.length <;> rfl
  rw [validatorOf, List.map_map, hmade, List.map_id]

/-- The address of a shape's cell stands for the fields in it: addresses are never followed too
far. -/
theorem Sound.validatorOf_fieldsAt {w : Workbench σ} (h : w.Sound) {a : Nat} (ha : w.Kept a)
    {cell : FieldCell σ} (hcell : w.cells[a]? = some cell) :
    w.validatorOf [.fieldsAt a] = [.fields (w.fieldsOf cell)] := by
  obtain ⟨depth, hdepth⟩ : ∃ depth, w.cells.length = depth + 1 :=
    Nat.exists_eq_add_one_of_ne_zero (by have := ha.1; omega)
  unfold validatorOf fieldsOf
  rw [List.map_singleton, hdepth, BenchStep.follow, hcell]
  congr 2
  apply List.map_congr_left
  intro e he
  rcases e with ⟨key, f | steps⟩
  · rfl
  · have hsteps : ∀ x ∈ steps, x.follow w.cells depth = x.follow w.cells w.cells.length := by
      intro x hx
      have hbound := ha.1
      exact (Keeps.refl w).follow h
        ((h.within ha hcell he x hx).mono fun b hb => ⟨hb.1, by omega, by omega⟩)
    simp only [List.map_congr_left hsteps, Workbench.validatorOf]

theorem Keeps.items {w w' : Workbench σ} (hk : w.Keeps w') {steps : List (BenchStep σ)}
    (h : ∀ x ∈ steps, x.Within w.Kept) : ∀ x ∈ steps, x.Within w'.Kept :=
  fun x hx => (h x hx).mono fun a ha => (hk a ha).1

theorem Sound.table {w : Workbench σ} (h : w.Sound) (name : String) :
    ∀ e ∈ w.table name, e.2.Within w.Kept := by
  intro e he
  unfold Workbench.table at he
  cases hcell : (w.tables.lookup name).bind fun a => w.cells[a]? with
  | none =>
    rw [hcell] at he
    nomatch he
  | some cell =>
    rw [hcell] at he
    obtain ⟨a, -, ha⟩ := Option.bind_eq_some_iff.1 hcell
    exact h.cells cell (List.mem_of_getElem? ha) e he

/-! ### What commands keep -/

theorem lookup_store (w : Workbench σ) (name : String) (b : BenchItem σ)
    (steps : List (BenchStep σ)) (label other : String) :
    (w.store name b steps label).items.lookup other =
      if other = name then some (if steps.isEmpty then b else ⟨w.next, b.steps ++ steps, label⟩)
      else w.items.lookup other := by
  unfold store
  split <;> exact lookup_putNamed _ _ _ _

theorem keeps_store (w : Workbench σ) (name : String) (b : BenchItem σ)
    (steps : List (BenchStep σ)) (label : String) : w.Keeps (w.store name b steps label) := by
  unfold store
  split <;> exact Keeps.refl w

/-- A new validator refers to what its parts refer to. -/
theorem Sound.store {w : Workbench σ} (h : w.Sound) (name : String) {b : BenchItem σ}
    {steps : List (BenchStep σ)} (label : String) (hb : ∀ x ∈ b.steps, x.Within w.Kept)
    (hsteps : ∀ x ∈ steps, x.Within w.Kept) : (w.store name b steps label).Sound := by
  have hitems : ∀ {other i}, (w.store name b steps label).items.lookup other = some i →
      ∀ x ∈ i.steps, x.Within w.Kept := by
    intro other i hi
    rw [lookup_store] at hi
    split at hi
    · cases hi
      split
      · exact hb
      · exact fun x hx => (List.mem_append.1 hx).elim (hb x) (hsteps x)
    · exact h.items hi
  unfold Workbench.store at hitems ⊢
  split
  · rename_i hempty
    rw [if_pos hempty] at hitems
    exact ⟨hitems, h.cells, h.older, h.tables⟩
  · rename_i hempty
    rw [if_neg hempty] at hitems
    exact ⟨hitems, h.cells, h.older, h.tables⟩

theorem length_copy (w : Workbench σ) (cell : FieldCell σ) :
    (w.copy cell).cells.length = w.cells.length + 1 := List.length_append

theorem getElem?_copy (w : Workbench σ) (cell : FieldCell σ) :
    (w.copy cell).cells[w.cells.length]? = some cell := List.getElem?_concat_length

theorem keeps_copy (w : Workbench σ) (cell : FieldCell σ) : w.Keeps (w.copy cell) := by
  intro a ha
  have hlength := length_copy w cell
  have hbound := ha.1
  exact ⟨⟨by omega, ha.2⟩, List.getElem?_append_left ha.1⟩

/-- The copy of a dictionary lies in a cell that belongs to no table. -/
theorem Sound.kept_copy {w : Workbench σ} (h : w.Sound) (cell : FieldCell σ) :
    (w.copy cell).Kept w.cells.length := by
  refine ⟨by simp [length_copy], ?_⟩
  intro e he hlength
  have hold := h.tables e he
  omega

theorem Sound.copy {w : Workbench σ} (h : w.Sound) {cell : FieldCell σ}
    (hcell : ∀ e ∈ cell, e.2.Within w.Kept) : (w.copy cell).Sound where
  items hi := (keeps_copy w cell).items (h.items hi)
  cells := by
    intro c hc e he
    refine BenchField.Within.mono ?_ fun a ha => (keeps_copy w cell a ha).1
    rcases List.mem_append.1 hc with hc | hc
    · exact h.cells c hc e he
    · rw [List.mem_singleton.1 hc] at he
      exact hcell e he
  older := by
    intro a ha c hc e he
    by_cases hold : a < w.cells.length
    · have hcell : w.cells[a]? = some c := (List.getElem?_append_left hold).symm.trans hc
      exact h.older ⟨hold, ha.2⟩ c hcell e he
    · -- The copy comes last, so all that it refers to is older.
      have hlast : a = w.cells.length := by
        have hlength := length_copy w cell
        have hbound := ha.1
        omega
      subst hlast
      have hc' : cell = c := Option.some.inj ((getElem?_copy w cell).symm.trans hc)
      exact (hcell e (hc' ▸ he)).mono fun b hb => hb.1
  tables := by
    intro e he
    have hlength := length_copy w cell
    have hold := h.tables e he
    omega

theorem mem_tables_of_lookup {w : Workbench σ} {table : String} {a : Nat}
    (h : w.tables.lookup table = some a) : (table, a) ∈ w.tables := by
  obtain ⟨before, after, htables, -⟩ := List.lookup_eq_some_iff.1 h
  simp [htables]

theorem keeps_setEntry (w : Workbench σ) (table key : String) (f : BenchField σ) :
    w.Keeps (w.setEntry table key f) := by
  intro a ha
  unfold setEntry
  split
  · rename_i b hb
    have hne : b ≠ a := ha.2 _ (mem_tables_of_lookup hb)
    exact ⟨⟨by simpa using ha.1, ha.2⟩, List.getElem?_set_ne hne⟩
  · refine ⟨⟨?_, ?_⟩, List.getElem?_append_left ha.1⟩
    · have hbound := ha.1
      simp only [List.length_append, List.length_singleton]
      omega
    · intro e he
      rcases List.mem_append.1 he with he | he
      · exact ha.2 e he
      · rw [List.mem_singleton.1 he]
        have hbound := ha.1
        omega

/-- An entry of a table lies in no cell but that of the table. -/
theorem Sound.setEntry {w : Workbench σ} (h : w.Sound) (table key : String) {f : BenchField σ}
    (hf : f.Within w.Kept) : (w.setEntry table key f).Sound := by
  have hkeeps := keeps_setEntry w table key f
  have hmono : ∀ {g : BenchField σ}, g.Within w.Kept → g.Within (w.setEntry table key f).Kept :=
    fun hg => hg.mono fun a ha => (hkeeps a ha).1
  have hitems : ∀ {name i}, w.items.lookup name = some i →
      ∀ x ∈ i.steps, x.Within (w.setEntry table key f).Kept := fun hi => hkeeps.items (h.items hi)
  unfold Workbench.setEntry at hkeeps hmono hitems ⊢
  split at hkeeps
  · rename_i a ha
    simp only [ha] at hmono hitems ⊢
    have hmem := mem_tables_of_lookup ha
    refine ⟨hitems, ?_, ?_, ?_⟩
    · intro cell hcell e he
      rcases List.mem_or_eq_of_mem_set hcell with hcell | rfl
      · exact hmono (h.cells cell hcell e he)
      · rcases mem_putNamed he with he | rfl
        · exact hmono (h.table table e he)
        · exact hmono hf
    · intro b hb cell hcell e he
      have hne : a ≠ b := hb.2 _ hmem
      have hcell' : w.cells[b]? = some cell := (List.getElem?_set_ne hne).symm.trans hcell
      exact h.older ⟨by simpa using hb.1, hb.2⟩ cell hcell' e he
    · intro e he
      simpa using h.tables e he
  · rename_i hnone
    simp only [hnone] at hmono hitems ⊢
    refine ⟨hitems, ?_, ?_, ?_⟩
    · intro cell hcell e he
      rcases List.mem_append.1 hcell with hcell | hcell
      · exact hmono (h.cells cell hcell e he)
      · rw [List.mem_singleton.1 hcell] at he
        rw [List.mem_singleton.1 he]
        exact hmono hf
    · intro b hb cell hcell e he
      have hne : w.cells.length ≠ b := hb.2 (table, w.cells.length) (by simp)
      have hold : b < w.cells.length := by
        have hbound := hb.1
        simp only [List.length_append, List.length_singleton] at hbound
        omega
      have hcell' : w.cells[b]? = some cell := (List.getElem?_append_left hold).symm.trans hcell
      exact h.older ⟨hold, fun d hd => hb.2 d (List.mem_append_left _ hd)⟩ cell hcell' e he
    · intro e he
      simp only [List.length_append, List.length_singleton]
      rcases List.mem_append.1 he with he | he
      · have hold := h.tables e he
        omega
      · rw [List.mem_singleton.1 he]
        omega

end Workbench
end CheckedActions
