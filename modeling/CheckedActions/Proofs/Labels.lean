import CheckedActions.Action.Basic
import CheckedActions.Proofs.Absence

/-!
Labels. The label of a chain is what its steps are called, joined by dots from the first of them
that is not empty. It is there to be shown and for nothing else: validators that are made in the
same way but for the labels they are given do the same.
-/

namespace CheckedActions

variable {σ : Type}

/-! ### Names joined by dots -/

namespace Validator

/-- Empty names in front leave no trace. -/
theorem labelAfter_eq (v : Validator σ) (base : String) :
    v.labelAfter base = ".".intercalate ((base :: v.map Step.name).dropWhile String.isEmpty) := by
  induction v generalizing base with
  | nil =>
    by_cases hb : base.isEmpty
    · rw [String.isEmpty_iff.1 hb]
      rfl
    · rw [List.map_nil, List.dropWhile_cons_of_neg hb, String.intercalate_singleton]
      rfl
  | cons s v ih =>
    have hstep : Validator.labelAfter (s :: v) base =
        Validator.labelAfter v (joinLabel base s.name) := rfl
    rw [hstep, ih, List.map_cons]
    by_cases hb : base.isEmpty
    · rw [joinLabel, if_pos hb, List.dropWhile_cons_of_pos hb]
    · have hname : ¬ (base ++ "." ++ s.name).isEmpty := by simp
      rw [joinLabel, if_neg hb, List.dropWhile_cons_of_neg hname, List.dropWhile_cons_of_neg hb,
        String.intercalate_cons_append, String.intercalate_cons_cons]

theorem label_eq (v : Validator σ) :
    v.label = ".".intercalate ((v.map Step.name).dropWhile String.isEmpty) :=
  v.labelAfter_eq ""

theorem labelAfter_append (v w : Validator σ) (base : String) :
    Validator.labelAfter (v ++ w) base = w.labelAfter (v.labelAfter base) := List.foldl_append

end Validator

/-! ### Steps without their labels -/

mutual
/-- The step without the label it was given, and so at every depth. -/
def Step.unlabelled : Step σ → Step σ
  | .typeOf tag => .typeOf tag
  | .array => .array
  | .date => .date
  | .required => .required
  | .fields declared => .fields (unlabelledFields declared)
  | .compose f _ => .compose f none
  | .optional f _ => .optional f none
termination_by structural s => s

def Validator.unlabelled : Validator σ → Validator σ
  | [] => []
  | s :: steps => s.unlabelled :: Validator.unlabelled steps
termination_by structural steps => steps

def Field.unlabelled : Field σ → Field σ
  | .checked steps => .checked (Validator.unlabelled steps)
  | .raw v => .raw v
termination_by structural f => f

def unlabelledFields : List (String × Field σ) → List (String × Field σ)
  | [] => []
  | (key, f) :: rest => (key, f.unlabelled) :: unlabelledFields rest
termination_by structural fields => fields
end

mutual
/-- No step looks at a label. -/
theorem Step.run_unlabelled : (s : Step σ) → (v : Value) → s.unlabelled.run v = s.run v
  | .typeOf _, _ => rfl
  | .array, _ => rfl
  | .date, _ => rfl
  | .required, _ => rfl
  | .fields declared, v => by
    unfold Step.unlabelled Step.run
    rw [runFields_unlabelled declared v]
  | .compose _ _, _ => rfl
  | .optional _ _, _ => rfl
termination_by structural s => s

theorem runSteps_unlabelled : (steps : List (Step σ)) → (v : Value) →
    runSteps (Validator.unlabelled steps) v = runSteps steps v
  | [], _ => rfl
  | s :: steps, v => by
    unfold Validator.unlabelled
    rw [runSteps_cons, runSteps_cons, s.run_unlabelled v]
    exact congrArg (s.run v >>= ·) (funext fun w => runSteps_unlabelled steps w)
termination_by structural steps => steps

theorem Field.run_unlabelled : (f : Field σ) → (v : Value) → (key : String) →
    f.unlabelled.run v key = f.run v key
  | .checked steps, v, key => by
    have hsteps : runSteps (Validator.unlabelled steps) = runSteps steps :=
      funext fun w => runSteps_unlabelled steps w
    unfold Field.unlabelled Field.run
    rw [hsteps]
  | .raw _, _, _ => rfl
termination_by structural f => f

theorem runFields_unlabelled : (fields : List (String × Field σ)) → (v : Value) →
    runFields (unlabelledFields fields) v = runFields fields v
  | [], _ => rfl
  | (key, f) :: rest, v => by
    unfold unlabelledFields runFields
    rw [f.run_unlabelled v key, runFields_unlabelled rest v]
termination_by structural fields => fields
end

theorem unlabelledFields_eq_map (fields : List (String × Field σ)) :
    unlabelledFields fields = fields.map fun e => (e.1, e.2.unlabelled) := by
  induction fields with
  | nil => rfl
  | cons e fields ih => rw [unlabelledFields, ih, List.map_cons]

theorem Validator.unlabelled_append (v w : Validator σ) :
    Validator.unlabelled (v ++ w) = v.unlabelled ++ w.unlabelled := by
  induction v with
  | nil => rfl
  | cons s v ih => exact congrArg (s.unlabelled :: ·) ih

/-! ### Extensions -/

theorem Value.textsFrom_eq_ok {i : Nat} {vs : List Value} {names : List String}
    (h : textsFrom i vs = .ok names) : vs = names.map str := by
  induction vs generalizing i names with
  | nil =>
    cases h
    rfl
  | cons v vs ih =>
    cases v with
    | str s =>
      obtain ⟨rest, hrest, rfl⟩ := map_eq_ok_iff.1 h
      rw [ih hrest, List.map_cons]
    | _ => cases h

namespace Extension

/-- What the steps are called that the extension adds. A shape adds two. -/
def names : Extension σ → List String
  | .tag t => [t.name]
  | .typeOf expected => [expected.text]
  | .array => ["array"]
  | .date => ["date"]
  | .required => ["is_required"]
  | .shape declared =>
    ["object", "shape\x7b" ++ ", ".intercalate (declared.keys.map Value.text) ++ "\x7d"]
  | .compose f label? => [label?.getD (f.name?.getD "compose")]
  | .optional f label? => [label?.getD ("optional(" ++ f.name?.getD "fn" ++ ")")]

/-- The extension without the label it was given, and so at every depth of a shape. -/
def unlabelled : Extension σ → Extension σ
  | .shape declared => .shape (declared.map fun e => (e.1, e.2.unlabelled))
  | .compose f _ => .compose f none
  | .optional f _ => .optional f none
  | x => x

end Extension

namespace Validator

theorem names_extendOnce {x : Extension σ} {u : Validator σ} (h : root.extendOnce x = .ok u) :
    u.map Step.name = x.names := by
  cases x with
  | typeOf expected =>
    obtain ⟨tag, rfl, rfl⟩ := typeOf?_eq_ok h
    rfl
  | shape declared =>
    obtain ⟨names, hnames, hu⟩ := bind_eq_ok_iff.1 h
    cases hu
    have hkeys : declared.keys = names.map Value.str := Value.textsFrom_eq_ok hnames
    have hlength : names.length ≤ (declared.map (·.2)).length := by
      have hlengths := congrArg List.length hkeys
      simp only [Keyed.keys, List.length_map] at hlengths ⊢
      exact hlengths.ge
    have htexts : declared.keys.map Value.text = names := by
      rw [hkeys, List.map_map]
      exact List.map_id _
    have hname : (Step.fields (names.zip (declared.map (·.2)))).name =
        "shape\x7b" ++ ", ".intercalate (declared.keys.map Value.text) ++ "\x7d" := by
      rw [Step.name, List.map_fst_zip hlength, htexts]
      rfl
    exact congrArg (["object", ·]) hname
  | tag | array | date | required | compose | optional =>
    cases h
    rfl

theorem names_extend {xs : List (Extension σ)} {c : Validator σ} (h : root.extend xs = .ok c) :
    c.map Step.name = xs.flatMap Extension.names := by
  induction xs generalizing c with
  | nil =>
    cases h
    rfl
  | cons x xs ih =>
    obtain ⟨u, d, hu, hd, rfl⟩ := extend_cons_eq_ok_iff.1 h
    rw [List.map_append, names_extendOnce hu, ih hd, List.flatMap_cons]

theorem extendOnce_unlabelled (x : Extension σ) :
    root.extendOnce x.unlabelled = (root.extendOnce x).map Validator.unlabelled := by
  cases x with
  | typeOf expected =>
    cases hu : root.extendOnce (.typeOf expected : Extension σ) with
    | error f => exact hu
    | ok u =>
      obtain ⟨tag, -, rfl⟩ := typeOf?_eq_ok hu
      exact hu
  | shape declared =>
    have hkeys : Keyed.keys (declared.map fun e => (e.1, e.2.unlabelled)) = declared.keys := by
      simp [Keyed.keys]
    have hfields : (declared.map fun e => (e.1, e.2.unlabelled)).map (·.2) =
        (declared.map (·.2)).map Field.unlabelled := by simp
    have hshape : ∀ names : List String,
        root.shape (names.zip ((declared.map (·.2)).map Field.unlabelled)) =
          Validator.unlabelled (root.shape (names.zip (declared.map (·.2)))) := by
      intro names
      have hzip : names.zip ((declared.map (·.2)).map Field.unlabelled) =
          unlabelledFields (names.zip (declared.map (·.2))) := by
        rw [unlabelledFields_eq_map, List.zip_map_right]
        rfl
      rw [hzip]
      rfl
    show root.shapeOf? _ = (root.shapeOf? declared).map _
    unfold shapeOf?
    rw [hkeys, hfields]
    cases Value.texts declared.keys with
    | error f => rfl
    | ok names => exact congrArg Except.ok (hshape names)
  | _ => rfl

/-- Whether steps can be made does not depend on labels, and apart from labels they are the same. -/
theorem extend_unlabelled (xs : List (Extension σ)) :
    root.extend (xs.map Extension.unlabelled) = (root.extend xs).map Validator.unlabelled := by
  induction xs with
  | nil => rfl
  | cons x xs ih =>
    rw [List.map_cons, extend_cons, extend_cons, extendOnce_unlabelled]
    cases root.extendOnce x with
    | error f => rfl
    | ok u =>
      show u.unlabelled.extend (xs.map Extension.unlabelled) = (u.extend xs).map _
      rw [extend_eq, extend_eq u, ih]
      cases root.extend xs with
      | error f => rfl
      | ok c => exact congrArg Except.ok (unlabelled_append u c).symm

theorem validate_unlabelled (v : Validator σ) (x : Value) :
    v.unlabelled.validate x = v.validate x := runSteps_unlabelled v x

/-- What is made in the same way but for labels does the same. -/
theorem validate_congr {v w : Validator σ} (h : v.unlabelled = w.unlabelled) (x : Value) :
    v.validate x = w.validate x := by
  rw [← validate_unlabelled v, h, validate_unlabelled]

end Validator

/-! ### Labels on a bench -/

namespace Workbench

theorem Stands.unique {w : Workbench σ} {name : String} {v v' : Validator σ} {label label' : String}
    (h : w.Stands name v label) (h' : w.Stands name v' label') : v = v' ∧ label = label' := by
  obtain ⟨i, hi, rfl, rfl⟩ := h
  obtain ⟨j, hj, rfl, rfl⟩ := h'
  cases hi.symm.trans hj
  exact ⟨rfl, rfl⟩

/-- A name that a command does not define stood before for what it stands for after. -/
theorem Stands.before {w w' : Workbench σ} {c : BenchCommand σ} {name : String} {v : Validator σ}
    {label : String} (h : w'.Stands name v label) (hturn : w.Turns c w') (hs : w.Sound)
    (hname : c.defines? ≠ some name) : w.Stands name v label := by
  obtain ⟨i, hi, rfl, rfl⟩ := h
  rw [hturn.lookup hname] at hi
  obtain ⟨-, hkeeps⟩ := hturn.sound hs
  exact ⟨i, hi, (hkeeps.validatorOf hs (hs.items hi)).symm, rfl⟩

/-- Every name stands for a validator with the label that its steps make. -/
def Labelled (w : Workbench σ) : Prop :=
  ∀ name v label, w.Stands name v label → label = v.label

theorem labelled_initial (first second : String) :
    (initial first second : Workbench σ).Labelled := by
  rintro name v label ⟨i, hi, rfl, rfl⟩
  obtain ⟨before, after, hitems, -⟩ := List.lookup_eq_some_iff.1 hi
  have hmem : (name, i) ∈ (initial first second : Workbench σ).items := by simp [hitems]
  rcases List.mem_cons.1 hmem with heq | hmem
  · cases heq
    rfl
  · cases List.mem_singleton.1 hmem
    rfl

theorem Labelled.append {w : Workbench σ} (hw : w.Labelled) {name : String} {v : Validator σ}
    {label : String} (h : w.Stands name v label) (u : Validator σ) :
    u.labelAfter label = Validator.label (v ++ u) := by
  rw [hw name v label h]
  exact (v.labelAfter_append u "").symm

/-- A definition adds its own steps to the label of the base. -/
theorem Turns.labelled {w w' : Workbench σ} {c : BenchCommand σ} (h : w.Turns c w')
    (hs : w.Sound) (hw : w.Labelled) : w'.Labelled := by
  intro name v label hv
  by_cases hname : c.defines? = some name
  · cases h with
    | same c => exact hw name v label hv
    | @define base b other steps hb =>
      cases hname
      obtain ⟨rfl, rfl⟩ := hv.unique (stands_define b name steps)
      exact hw.append ⟨b, hb, rfl, rfl⟩ steps
    | @defineShape base b other table hb =>
      cases hname
      obtain ⟨rfl, rfl⟩ := hv.unique (stands_defineShape hs hb name table)
      exact hw.append ⟨b, hb, rfl, rfl⟩ _
    | setField => cases hname
    | setFieldNamed => cases hname
  · exact hw name v label (hv.before h hs hname)

theorem Runs.labelled {w w' : Workbench σ} {s t : Scene σ}
    {steps : List (BenchCommand σ × Except Failure BenchAnswer)} (h : Runs w s steps w' t)
    (hs : w.Sound) (hw : w.Labelled) : w'.Labelled := by
  induction h with
  | done w s => exact hw
  | @next w v u s t r c outcome rest hc hrest ih =>
    have hturn := turns_carryOut w c s
    rw [hc] at hturn
    exact ih (hturn.sound hs).1 (hturn.labelled hs hw)

end Workbench

/-! ### Labels in descriptions -/

namespace Action

theorem along?_labels {fields : List (String × Field σ)} {name : String} {c : Validator σ}
    (h : fields.lookup name = some (.checked c)) :
    (labels fields).along? [name] = some (.str (if c.label.isEmpty then "any" else c.label)) := by
  have hlookup := lookup_map Field.label fields name
  rw [h] at hlookup
  unfold labels
  rw [Value.along?_record]
  exact congrArg (Option.bind · fun x => x.along? []) hlookup

theorem along?_described_jacks {a : Action σ} {name : String} {c : Validator σ}
    (h : a.descriptor.jackTypes.lookup name = some (.checked c)) :
    (Value.record a.describe).along? ["jacks", name] =
      some (.str (if c.label.isEmpty then "any" else c.label)) := by
  rw [Value.along?_record]
  exact along?_labels h

theorem along?_described_props {a : Action σ} {name : String} {c : Validator σ}
    (h : a.descriptor.propTypes.lookup name = some (.checked c)) :
    (Value.record a.describe).along? ["props", name] =
      some (.str (if c.label.isEmpty then "any" else c.label)) := by
  rw [Value.along?_record]
  exact along?_labels h

end Action

namespace Validator

/-- The label of a chain is what its steps are called, joined by dots from the first of them that is
not empty; it is the label that a bench keeps, and what a description shows, or `any` where it is
empty. Steps that differ in nothing but the labels given to them, at whatever depth of shapes, can
be made or not alike, and the validators they make do the same with every value in every scene. -/
theorem labels_joined_and_only_shown (xs : List (Extension σ)) :
    (∀ c, root.extend xs = .ok c →
      c.label = ".".intercalate ((xs.flatMap Extension.names).dropWhile String.isEmpty) ∧
      (∀ (a : Action σ) name,
        (a.descriptor.jackTypes.lookup name = some (.checked c) →
          (Value.record a.describe).along? ["jacks", name] =
            some (.str (if c.label.isEmpty then "any" else c.label))) ∧
        (a.descriptor.propTypes.lookup name = some (.checked c) →
          (Value.record a.describe).along? ["props", name] =
            some (.str (if c.label.isEmpty then "any" else c.label)))) ∧
      ∀ first second s₀ steps (w : Workbench σ) s name label,
        Workbench.Runs (.initial first second) s₀ steps w s → w.Stands name c label →
          label = c.label) ∧
    ∀ ys, ys.map Extension.unlabelled = xs.map Extension.unlabelled →
      (∀ f, root.extend ys = .error f ↔ root.extend xs = .error f) ∧
      ∀ c, root.extend xs = .ok c → ∃ d, root.extend ys = .ok d ∧
        ∀ v s, (d.validate v).runIn s = (c.validate v).runIn s := by
  refine ⟨fun c hc => ⟨?label, ?described, ?stored⟩, fun ys hys => ⟨?fails, ?made⟩⟩
  case label => rw [label_eq, names_extend hc]
  case described =>
    exact fun a name => ⟨Action.along?_described_jacks, Action.along?_described_props⟩
  case stored =>
    intro first second s₀ steps w s name label hruns hstands
    exact hruns.labelled (Workbench.sound_initial first second)
      (Workbench.labelled_initial first second) name c label hstands
  all_goals
    have hsame := extend_unlabelled ys
    rw [hys, extend_unlabelled xs] at hsame
  case fails =>
    intro f
    calc root.extend ys = .error f
        ↔ (root.extend ys).map Validator.unlabelled = .error f := map_eq_error_iff.symm
      _ ↔ (root.extend xs).map Validator.unlabelled = .error f := by rw [hsame]
      _ ↔ root.extend xs = .error f := map_eq_error_iff
  case made =>
    intro c hc
    rw [hc] at hsame
    obtain ⟨d, hd, hdc⟩ := map_eq_ok_iff.1 hsame.symm
    exact ⟨d, hd, fun v s => congrArg (Call.runIn · s) (validate_congr hdc v)⟩

/-- A person with a name that is counted, under labels as they are given. -/
def person (inner? outer? : Option String) : List (Extension Nat) :=
  [.compose counting (some ""),
    .shape [(.str "name", .checked (root.string.compose counting inner?)),
      (.str "age", .checked root.number)],
    .optional counting outer?]

/-- An action that takes a person. -/
def personAction (c : Validator Nat) : Action Nat :=
  ⟨0, ⟨"Greet", "Greets someone", [], [("person", .checked c), ("any", .checked root)],
    fun _ props => pure props, none, none⟩⟩

/-- The empty label in front leaves no trace, the label of a field is not that of its shape, and
both persons are validated alike. -/
theorem person_labelled : ∃ c d : Validator Nat,
    root.extend (person (some "counted") none) = .ok c ∧
    root.extend (person none (some "")) = .ok d ∧
    c.label = "object.shape\x7bname, age\x7d.optional(counting)" ∧
    (Value.record (personAction c).describe).along? ["props", "person"] =
      some (.str "object.shape\x7bname, age\x7d.optional(counting)") ∧
    (Value.record (personAction c).describe).along? ["props", "any"] = some (.str "any") ∧
    (∃ steps w, Workbench.Runs (.initial "Types" "fresh") (.initial 0) steps w (.initial 0) ∧
      w.Stands "person" c "object.shape\x7bname, age\x7d.optional(counting)") ∧
    ∀ v s, (d.validate v).runIn s = (c.validate v).runIn s := by
  obtain ⟨hmade, halike⟩ := labels_joined_and_only_shown (person (some "counted") none)
  obtain ⟨hlabel, hdescribed, hstored⟩ := hmade _ rfl
  obtain ⟨hempty, -⟩ := labels_joined_and_only_shown ([] : List (Extension Nat))
  obtain ⟨-, hany, -⟩ := hempty root rfl
  obtain ⟨-, hsame⟩ := halike (person none (some "")) rfl
  obtain ⟨d, hd, hvalidate⟩ := hsame _ rfl
  have hjoined : ".".intercalate (((person (some "counted") none).flatMap Extension.names).dropWhile
      String.isEmpty) = "object.shape\x7bname, age\x7d.optional(counting)" := by decide
  rw [hjoined] at hlabel
  refine ⟨_, d, rfl, hd, hlabel, ?described, ?any, ?stored, hvalidate⟩
  case described =>
    have hperson := (hdescribed (personAction _) "person").2 rfl
    rw [hlabel] at hperson
    exact hperson
  case any => exact (hany (personAction _) "any").2 rfl
  case stored =>
    obtain ⟨steps, w, hruns, hstands⟩ : ∃ steps w,
        Workbench.Runs (.initial "Types" "fresh") (.initial 0) steps w (.initial 0) ∧
          w.Stands "person" _ _ :=
      ⟨[(.define "person" "Types" (root.extend (person (some "counted") none)), _)], _,
        .next rfl (.done _ _), _, rfl, rfl, rfl⟩
    exact ⟨steps, w, hruns, by rwa [hstored _ _ _ _ _ _ _ _ hruns hstands, hlabel] at hstands⟩

end Validator
end CheckedActions
