import CheckedActions.Proofs.BenchWork
import CheckedActions.Proofs.BenchCells

/-!
Validators on a bench stay what they are. Every command keeps the cells of shapes, and names no
other validator than the one that it defines.
-/

namespace CheckedActions

variable {σ : Type}

namespace Workbench

/-! ### Commands -/

/-- What a command that is carried out can make of a bench. -/
inductive Turns (w : Workbench σ) : BenchCommand σ → Workbench σ → Prop
  | same (c : BenchCommand σ) : Turns w c w
  | define {base : String} {b : BenchItem σ} (name : String) (steps : Validator σ)
      (hb : w.items.lookup base = some b) :
      Turns w (.define name base (.ok steps))
        (w.store name b (steps.map .made) (steps.labelAfter b.label))
  | defineShape {base : String} {b : BenchItem σ} (name table : String)
      (hb : w.items.lookup base = some b) :
      Turns w (.defineShape name base table)
        ((w.copy (w.table table)).store name b [.made (.typeOf .object), .fieldsAt w.cells.length]
          ((Validator.root.shape (w.fieldsOf (w.table table))).labelAfter b.label))
  | setField (table key : String) (f : Field σ) :
      Turns w (.setField table key (.ok f)) (w.setEntry table key (.made f))
  | setFieldNamed {name : String} {i : BenchItem σ} (table key : String)
      (hi : w.items.lookup name = some i) :
      Turns w (.setFieldNamed table key name) (w.setEntry table key (.chain i.steps))

theorem turns_carryOut (w : Workbench σ) (c : BenchCommand σ) (s : Scene σ) :
    w.Turns c ((BenchWork.carryOut c).runOn w s).1.2 := by
  have hsame : ∀ {c : BenchCommand σ} {v : Workbench σ}, v = w → w.Turns c v := by
    rintro c v rfl
    exact .same c
  cases c with
  | define name base steps =>
    unfold BenchWork.carryOut
    cases hb : w.items.lookup base with
    | none =>
      rw [BenchWork.runOn_item_bind_none hb]
      exact .same _
    | some b =>
      rw [BenchWork.runOn_item_bind_some hb]
      cases steps with
      | error f => exact .same _
      | ok steps => exact .define name steps hb
  | defineShape name base table =>
    unfold BenchWork.carryOut
    cases hb : w.items.lookup base with
    | none =>
      rw [BenchWork.runOn_item_bind_none hb]
      exact .same _
    | some b =>
      rw [BenchWork.runOn_item_bind_some hb]
      exact .defineShape name table hb
  | setField table key field =>
    cases field with
    | error f => exact .same _
    | ok f => exact .setField table key f
  | setFieldNamed table key name =>
    unfold BenchWork.carryOut
    cases hi : w.items.lookup name with
    | none =>
      rw [BenchWork.runOn_item_bind_none hi]
      exact .same _
    | some i =>
      rw [BenchWork.runOn_item_bind_some hi]
      exact .setFieldNamed table key hi
  | check name v => exact hsame (BenchWork.reads_check name v w s)
  | label name => exact hsame (BenchWork.reads_label name w s)
  | same left right => exact hsame (BenchWork.reads_same left right w s)
  | assign name field => exact hsame (BenchWork.reads_assign name field w s)

theorem within_made (steps : Validator σ) (P : Nat → Prop) :
    ∀ x ∈ steps.map BenchStep.made, x.Within P := by
  intro x hx
  obtain ⟨s, -, rfl⟩ := List.mem_map.1 hx
  trivial

/-- A command keeps the cells of shapes, and makes no other references. -/
theorem Turns.sound {w w' : Workbench σ} {c : BenchCommand σ} (h : w.Turns c w') (hs : w.Sound) :
    w'.Sound ∧ w.Keeps w' := by
  cases h with
  | same c => exact ⟨hs, .refl w⟩
  | define name steps hb =>
    exact ⟨hs.store name _ (hs.items hb) (within_made steps _), keeps_store w name _ _ _⟩
  | @defineShape base b name table hb =>
    have hcopy := keeps_copy w (w.table table)
    have hsteps : ∀ x ∈ ([.made (.typeOf .object), .fieldsAt w.cells.length] : List (BenchStep σ)),
        x.Within (w.copy (w.table table)).Kept := by
      intro x hx
      rcases List.mem_cons.1 hx with rfl | hx
      · trivial
      · rw [List.mem_singleton.1 hx]
        exact hs.kept_copy _
    have hsound := (hs.copy (hs.table table)).store name
      ((Validator.root.shape (w.fieldsOf (w.table table))).labelAfter b.label)
      (hcopy.items (hs.items hb)) hsteps
    exact ⟨hsound, hcopy.trans (keeps_store _ name _ _ _)⟩
  | setField table key f => exact ⟨hs.setEntry table key trivial, keeps_setEntry w table key _⟩
  | setFieldNamed table key hi =>
    exact ⟨hs.setEntry table key (hs.items hi), keeps_setEntry w table key _⟩

end Workbench

/-- The name that a command defines, if it goes well. -/
def BenchCommand.defines? : BenchCommand σ → Option String
  | define name _ _ => some name
  | defineShape name _ _ => some name
  | _ => none

namespace Workbench

theorem items_setEntry (w : Workbench σ) (table key : String) (f : BenchField σ) :
    (w.setEntry table key f).items = w.items := by
  unfold setEntry
  split <;> rfl

/-- A command names no other validator than the one it defines. -/
theorem Turns.lookup {w w' : Workbench σ} {c : BenchCommand σ} (h : w.Turns c w') {name : String}
    (hname : c.defines? ≠ some name) : w'.items.lookup name = w.items.lookup name := by
  cases h with
  | same c => rfl
  | define other steps hb =>
    have hne : name ≠ other := fun heq => hname (heq ▸ rfl)
    rw [lookup_store, if_neg hne]
  | defineShape other table hb =>
    have hne : name ≠ other := fun heq => hname (heq ▸ rfl)
    rw [lookup_store, if_neg hne]
    rfl
  | setField table key f => rw [items_setEntry]
  | setFieldNamed table key hi => rw [items_setEntry]

/-! ### Runs -/

/-- Commands are carried out one after another, whatever their outcomes. -/
inductive Runs : Workbench σ → Scene σ → List (BenchCommand σ × Except Failure BenchAnswer) →
    Workbench σ → Scene σ → Prop
  | done (w : Workbench σ) (s : Scene σ) : Runs w s [] w s
  | next {w v u : Workbench σ} {s t r : Scene σ} {c : BenchCommand σ}
      {outcome : Except Failure BenchAnswer}
      {rest : List (BenchCommand σ × Except Failure BenchAnswer)}
      (h : (BenchWork.carryOut c).runOn w s = ((outcome, v), t)) (hrest : Runs v t rest u r) :
      Runs w s ((c, outcome) :: rest) u r

/-- Commands can be carried out in any order. -/
theorem exists_runs (commands : List (BenchCommand σ)) (w : Workbench σ) (s : Scene σ) :
    ∃ steps w' t, Runs w s steps w' t ∧ steps.map (·.1) = commands := by
  induction commands generalizing w s with
  | nil => exact ⟨[], w, s, .done w s, rfl⟩
  | cons c commands ih =>
    obtain ⟨rest, w', t, hruns, hcommands⟩ := ih _ _
    exact ⟨_, w', t, .next rfl hruns, by rw [List.map_cons, hcommands]⟩

theorem Runs.append {w v u : Workbench σ} {s t r : Scene σ}
    {steps later : List (BenchCommand σ × Except Failure BenchAnswer)} (h : Runs w s steps v t)
    (hlater : Runs v t later u r) : Runs w s (steps ++ later) u r := by
  induction h with
  | done w s => exact hlater
  | next hc hrest ih => exact .next hc (ih hlater)

theorem sound_initial (first second : String) : (initial first second : Workbench σ).Sound where
  items := by
    intro name i hi x hx
    obtain ⟨before, after, hitems, -⟩ := List.lookup_eq_some_iff.1 hi
    have hmem : (name, i) ∈ (initial first second : Workbench σ).items := by simp [hitems]
    rcases List.mem_cons.1 hmem with heq | hmem
    · cases heq
      nomatch hx
    · cases List.mem_singleton.1 hmem
      nomatch hx
  cells := fun _ hcell => nomatch hcell
  older := fun ha => absurd ha.1 (Nat.not_lt_zero _)
  tables := fun _ he => nomatch he

theorem Runs.sound {w w' : Workbench σ} {s t : Scene σ}
    {steps : List (BenchCommand σ × Except Failure BenchAnswer)} (h : Runs w s steps w' t)
    (hs : w.Sound) : w'.Sound ∧ w.Keeps w' := by
  induction h with
  | done w s => exact ⟨hs, .refl w⟩
  | @next w v u s t r c outcome rest hc hrest ih =>
    have hturn := turns_carryOut w c s
    rw [hc] at hturn
    obtain ⟨hv, hkeeps⟩ := hturn.sound hs
    obtain ⟨hu, hkeeps'⟩ := ih hv
    exact ⟨hu, hkeeps.trans hkeeps'⟩

/-- What a name stands for changes only where the name is defined anew. -/
theorem Runs.lookup {w w' : Workbench σ} {s t : Scene σ}
    {steps : List (BenchCommand σ × Except Failure BenchAnswer)} (h : Runs w s steps w' t)
    {name : String} (hname : ∀ x ∈ steps, x.2.isOk → x.1.defines? ≠ some name) :
    w'.items.lookup name = w.items.lookup name := by
  induction h with
  | done w s => rfl
  | @next w v u s t r c outcome rest hc hrest ih =>
    obtain ⟨hfirst, hothers⟩ := List.forall_mem_cons.1 hname
    refine (ih hothers).trans ?_
    have hturn := turns_carryOut w c s
    have hclean := BenchWork.failsClean_carryOut c w s
    rw [hc] at hturn hclean
    cases houtcome : outcome.isOk with
    | true => exact hturn.lookup (hfirst houtcome)
    | false => rw [show v = w from hclean houtcome]

/-! ### What names stand for -/

/-- A name stands for a validator with a label. -/
def Stands (w : Workbench σ) (name : String) (v : Validator σ) (label : String) : Prop :=
  ∃ i, w.items.lookup name = some i ∧ w.validatorOf i.steps = v ∧ i.label = label

section Stands

variable {w w' : Workbench σ} {base name : String} {v : Validator σ} {label : String}

theorem Runs.stands {s t : Scene σ} {steps : List (BenchCommand σ × Except Failure BenchAnswer)}
    (h : Runs w s steps w' t) (hs : w.Sound) (hstands : w.Stands name v label)
    (hname : ∀ x ∈ steps, x.2.isOk → x.1.defines? ≠ some name) : w'.Stands name v label := by
  obtain ⟨i, hi, rfl, rfl⟩ := hstands
  obtain ⟨-, hkeeps⟩ := h.sound hs
  exact ⟨i, (h.lookup hname).trans hi, hkeeps.validatorOf hs (hs.items hi), rfl⟩

theorem Stands.runOn_check (h : w.Stands name v label) (x : Value) (s : Scene σ) :
    (BenchWork.carryOut (.check name x)).runOn w s =
      ((((v.validate x).runIn s).1.map BenchAnswer.value, w), ((v.validate x).runIn s).2) := by
  obtain ⟨i, hi, rfl, -⟩ := h
  unfold BenchWork.carryOut
  rw [BenchWork.runOn_item_bind_some hi, BenchWork.runOn_bind, BenchWork.runOn_get]
  dsimp only
  rw [BenchWork.runOn_bind, BenchWork.runOn_ofCall]
  rcases ((w.validatorOf i.steps).validate x).runIn s with ⟨_ | _, t⟩ <;> rfl

theorem Stands.runOn_label (h : w.Stands name v label) (s : Scene σ) :
    (BenchWork.carryOut (.label name)).runOn w s = ((.ok (.text label), w), s) := by
  obtain ⟨i, hi, -, rfl⟩ := h
  exact BenchWork.runOn_item_bind_some hi _ s

theorem Stands.runOn_assign (h : w.Stands name v label) (field : String) (s : Scene σ) :
    (BenchWork.carryOut (.assign name field)).runOn w s =
      ((.error (BenchWork.assignFailure field), w), s) := by
  obtain ⟨i, hi, -, -⟩ := h
  exact BenchWork.runOn_item_bind_some hi _ s

/-- What a new name stands for: the base itself, or one extended by steps. -/
theorem stands_store {b : BenchItem σ} (steps : List (BenchStep σ)) (label : String)
    (hlabel : steps.isEmpty → label = b.label) :
    (w.store name b steps label).Stands name (w.validatorOf (b.steps ++ steps)) label := by
  have hlookup := lookup_store w name b steps label name
  rw [if_pos rfl] at hlookup
  have hcells : ∀ xs, (w.store name b steps label).validatorOf xs = w.validatorOf xs := by
    intro xs
    unfold store
    split <;> rfl
  refine ⟨_, hlookup, ?_, ?_⟩
  · rw [hcells]
    split
    · rename_i hempty
      rw [List.isEmpty_iff.1 hempty, List.append_nil]
    · rfl
  · split
    · rename_i hempty
      exact (hlabel hempty).symm
    · rfl

theorem stands_define (b : BenchItem σ) (name : String) (steps : Validator σ) :
    (w.store name b (steps.map .made) (steps.labelAfter b.label)).Stands name
      (w.validatorOf b.steps ++ steps) (steps.labelAfter b.label) := by
  rw [← validatorOf_made w steps, ← validatorOf_append, validatorOf_made]
  apply stands_store
  intro hempty
  rw [List.map_eq_nil_iff.1 (List.isEmpty_iff.1 hempty)]
  rfl

theorem stands_defineShape (hs : w.Sound) {b : BenchItem σ} (hb : w.items.lookup base = some b)
    (name table : String) :
    let shape := Validator.root.shape (w.fieldsOf (w.table table))
    ((w.copy (w.table table)).store name b [.made (.typeOf .object), .fieldsAt w.cells.length]
      (shape.labelAfter b.label)).Stands name (w.validatorOf b.steps ++ shape)
        (shape.labelAfter b.label) := by
  have hcopy := keeps_copy w (w.table table)
  have hsound := hs.copy (hs.table table)
  have hbase := hcopy.validatorOf hs (hs.items hb)
  have hfields := hsound.validatorOf_fieldsAt (hs.kept_copy _) (getElem?_copy w _)
  rw [hcopy.fieldsOf hs (hs.table table)] at hfields
  have hobject : (w.copy (w.table table)).validatorOf [.made (.typeOf .object)] =
      [.typeOf .object] := validatorOf_made _ [.typeOf .object]
  have hnew : (w.copy (w.table table)).validatorOf
      (b.steps ++ [.made (.typeOf .object), .fieldsAt w.cells.length]) =
        w.validatorOf b.steps ++ Validator.root.shape (w.fieldsOf (w.table table)) := by
    rw [validatorOf_append, hbase]
    refine congrArg (w.validatorOf b.steps ++ ·) ?_
    refine (validatorOf_append _ [.made (.typeOf .object)] _).trans ?_
    rw [hobject, hfields]
    rfl
  dsimp only
  rw [← hnew]
  exact stands_store _ _ fun hempty => absurd hempty (by simp)

/-- A definition names the base extended by the steps. -/
theorem Stands.define (h : w.Stands base v label) (name : String) (steps : Validator σ)
    (s : Scene σ) :
    ∃ w', (BenchWork.carryOut (.define name base (.ok steps))).runOn w s =
        ((.ok (.text (steps.labelAfter label)), w'), s) ∧
      w'.Stands name (v ++ steps) (steps.labelAfter label) := by
  obtain ⟨b, hb, rfl, rfl⟩ := h
  exact ⟨_, BenchWork.runOn_item_bind_some hb _ s, stands_define b name steps⟩

/-- A shape is one of the entries that its table has when it is defined. -/
theorem Stands.defineShape (h : w.Stands base v label) (hs : w.Sound) (name table : String)
    (s : Scene σ) :
    let shape := Validator.root.shape (w.fieldsOf (w.table table))
    ∃ w', (BenchWork.carryOut (.defineShape name base table)).runOn w s =
        ((.ok (.text (shape.labelAfter label)), w'), s) ∧
      w'.Stands name (v ++ shape) (shape.labelAfter label) := by
  obtain ⟨b, hb, rfl, rfl⟩ := h
  exact ⟨_, BenchWork.runOn_item_bind_some hb _ s, stands_defineShape hs hb name table⟩

end Stands

/-- A validator does not change once it is defined. Whatever commands come before and after, as long
as its name is not defined anew, checking any value in any scene goes as it went first, and its
label is the same. Assigning to a validator always fails, its two fields being frozen, and a command
that fails leaves the bench as it was, with all its validators and names. -/
theorem validators_keep {first second : String} {w w' : Workbench σ} {s₀ s t : Scene σ}
    {before after : List (BenchCommand σ × Except Failure BenchAnswer)}
    (hbefore : Runs (initial first second) s₀ before w s) (hafter : Runs w s after w' t) :
    (∀ name i, w.items.lookup name = some i →
      (∀ x ∈ after, x.2.isOk → x.1.defines? ≠ some name) →
      (∀ v u, ∃ outcome u',
        (BenchWork.carryOut (.check name v)).runOn w u = ((outcome, w), u') ∧
        (BenchWork.carryOut (.check name v)).runOn w' u = ((outcome, w'), u')) ∧
      ∀ u, (BenchWork.carryOut (.label name)).runOn w u = ((.ok (.text i.label), w), u) ∧
        (BenchWork.carryOut (.label name)).runOn w' u = ((.ok (.text i.label), w'), u)) ∧
    (∀ name i field u, w'.items.lookup name = some i →
      ∃ f, (BenchWork.carryOut (.assign name field)).runOn w' u = ((.error f, w'), u) ∧
        (field = "fn" ∨ field = "label" → f = .frozenField field)) ∧
    ∀ c u f w'' u', (BenchWork.carryOut c).runOn w' u = ((.error f, w''), u') → w'' = w' := by
  obtain ⟨hsound, -⟩ := hbefore.sound (sound_initial first second)
  have hstands : ∀ {v : Workbench σ} {name i}, v.items.lookup name = some i →
      v.Stands name (v.validatorOf i.steps) i.label := fun hi => ⟨_, hi, rfl, rfl⟩
  refine ⟨?_, fun name i field u hi =>
    ⟨_, (hstands hi).runOn_assign field u, fun h => if_pos h⟩, ?_⟩
  · intro name i hi hname
    have hfirst := hstands hi
    have hlater := hafter.stands hsound hfirst hname
    exact ⟨fun v u => ⟨_, _, hfirst.runOn_check v u, hlater.runOn_check v u⟩,
      fun u => ⟨hfirst.runOn_label u, hlater.runOn_label u⟩⟩
  · intro c u f w'' u' hfailed
    have hclean := BenchWork.failsClean_carryOut c w' u
    rw [hfailed] at hclean
    exact hclean rfl

/-- A bench with a table of fields and a shape that was made of it: the table has one cell, and the
shape another one. -/
def personBench : Workbench Unit where
  items := [("Types", ⟨0, [], ""⟩), ("fresh", ⟨1, [], ""⟩),
    ("name", ⟨2, [.made (.typeOf .string)], "string"⟩),
    ("person", ⟨3, [.made (.typeOf .object), .fieldsAt 1], "object.shape\x7bname\x7d"⟩)]
  tables := [("fields", 0)]
  cells := [[("name", .chain [.made (.typeOf .string)])],
    [("name", .chain [.made (.typeOf .string)])]]
  next := 4

/-- The shape takes a name that is a text, also when the table has been changed, and the name of the
validator in it given to another one. -/
theorem person_keeps : ∃ w', Runs personBench (.initial ())
      [(.setField "fields" "name" (.ok (.checked [.typeOf .number])), .ok (.keys ["name"])),
        (.define "name" "Types" (.ok [.typeOf .number]), .ok (.text "number"))]
      w' (.initial ()) ∧
    ∀ u, (BenchWork.carryOut (.check "person" (.record [("name", .str "Ada")]))).runOn w' u =
      ((.ok (.value (.record [("name", .str "Ada")])), w'), u) := by
  have hbefore : Runs (initial "Types" "fresh") (.initial ())
      [(.define "name" "Types" (.ok [.typeOf .string]), .ok (.text "string")),
        (.setFieldNamed "fields" "name" "name", .ok (.keys ["name"])),
        (.defineShape "person" "Types" "fields", .ok (.text "object.shape\x7bname\x7d"))]
      personBench (.initial ()) := .next rfl (.next rfl (.next rfl (.done _ _)))
  have hafter : Runs personBench (.initial ())
      [(.setField "fields" "name" (.ok (.checked [.typeOf .number])), .ok (.keys ["name"])),
        (.define "name" "Types" (.ok [.typeOf .number]), .ok (.text "number"))]
      _ (.initial ()) := .next rfl (.next rfl (.done _ _))
  refine ⟨_, hafter, ?_⟩
  intro u
  obtain ⟨hkeep, -, -⟩ := validators_keep hbefore hafter
  obtain ⟨hcheck, -⟩ := hkeep "person" _ rfl (by simp [BenchCommand.defines?])
  obtain ⟨outcome, u', hfirst, hlater⟩ := hcheck (.record [("name", .str "Ada")]) u
  cases hfirst
  exact hlater

end Workbench
end CheckedActions
