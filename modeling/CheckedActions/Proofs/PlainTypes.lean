import CheckedActions.Proofs.Performing

/-!
Plain types. A plain chain begins with a primitive accessor or a shape of plain fields, and all it
does after that is to check. What a handler sees under plain fields is of their types at every
depth, and but for dates and shapes it is the very value that was handed in.
-/

namespace CheckedActions

variable {σ : Type}

/-- The tags that primitive accessors ask for. -/
def TypeTag.primitive : List TypeTag := [.string, .number, .boolean, .object, .function]

/-- Whether a step only checks, and hands on the value it is given. -/
def Step.isCheck : Step σ → Bool
  | .typeOf _ => true
  | .array => true
  | .required => true
  | _ => false

mutual
/-- Chains whose first step is a primitive accessor, or that are shapes of plain fields, and that
go on with checks only. -/
inductive Plain : Validator σ → Prop
  | typeOf {tag later} (ht : tag ∈ TypeTag.primitive) (hl : later.all Step.isCheck) :
    Plain (.typeOf tag :: later)
  | array {later} (hl : later.all Step.isCheck) : Plain (.array :: later)
  | date {later} (hl : later.all Step.isCheck) : Plain (.date :: later)
  | shape {declared later} (hd : PlainFields declared) (hl : later.all Step.isCheck) :
    Plain (.typeOf .object :: .fields declared :: later)

inductive PlainFields : List (String × Field σ) → Prop
  | nil : PlainFields []
  | cons {k steps rest} (h : Plain steps) (hs : PlainFields rest) :
    PlainFields ((k, .checked steps) :: rest)
end

mutual
/-- A result of a plain type, with the value it came from. It is absent only if the chain does not
require it. -/
inductive Typed : Validator σ → Value → Value → Prop
  | absent {steps} (h : Step.required ∉ steps) : Typed steps .undefined .undefined
  | tagged {tag later x} (ht : tag ∈ TypeTag.primitive) (hl : later.all Step.isCheck)
    (hx : x.tag = tag) : Typed (.typeOf tag :: later) x x
  | list {later xs} : Typed (.array :: later) (.list xs) (.list xs)
  | tuple {later xs} : Typed (.array :: later) (.tuple xs) (.tuple xs)
  /-- A date is a moment in universal time. -/
  | date {later v t} (ho : t.offset = some 0) : Typed (.date :: later) v (.datetime t)
  | shape {declared later v results} (h : TypedFields declared v results) :
    Typed (.typeOf .object :: .fields declared :: later) v (.record results)

/-- Results of plain fields under exactly the declared names, each from the value's own field. -/
inductive TypedFields : List (String × Field σ) → Value → List (String × Value) → Prop
  | nil {v} : TypedFields [] v []
  | cons {k steps rest v w x results} (hw : v.readField k = .ok w) (h : Typed steps w x)
    (hs : TypedFields rest v results) :
    TypedFields ((k, .checked steps) :: rest) v ((k, x) :: results)
end

theorem checkTag_eq_ok {tag : TypeTag} {v x : Value} (h : checkTag tag v = .ok x) :
    x = v ∧ (v = .undefined ∨ v.tag = tag) := by
  unfold checkTag at h
  split at h
  · rename_i hv
    cases h
    exact ⟨rfl, hv.imp_left Value.isUndefined_iff.1⟩
  · cases h

theorem checkArray_eq_ok {v x : Value} (h : checkArray v = .ok x) :
    x = v ∧ (v = .undefined ∨ (∃ xs, v = .list xs) ∨ ∃ xs, v = .tuple xs) := by
  unfold checkArray at h
  split at h <;> cases h <;> simp

theorem checkPresent_eq_ok {v x : Value} (h : checkPresent v = .ok x) :
    x = v ∧ v ≠ .undefined := by
  unfold checkPresent at h
  split at h
  · cases h
  · rename_i hv
    cases h
    exact ⟨rfl, fun hu => hv (Value.isUndefined_iff.2 hu)⟩

/-- A check hands on the value it is given, and an absent one only if it does not require it. -/
theorem Step.run_check {st : Step σ} (hst : st.isCheck) {v x : Value} {s t : Scene σ}
    (h : (st.run v).runIn s = (.ok x, t)) : x = v ∧ (v = .undefined → st ≠ .required) := by
  cases st with
  | typeOf tag =>
    rw [Step.run, Call.runIn_ofExcept, Prod.mk.injEq] at h
    exact ⟨(checkTag_eq_ok h.1).1, fun _ => by simp⟩
  | array =>
    rw [Step.run, Call.runIn_ofExcept, Prod.mk.injEq] at h
    exact ⟨(checkArray_eq_ok h.1).1, fun _ => by simp⟩
  | required =>
    rw [Step.run, Call.runIn_ofExcept, Prod.mk.injEq] at h
    obtain ⟨hx, hv⟩ := checkPresent_eq_ok h.1
    exact ⟨hx, fun hu => (hv hu).elim⟩
  | _ => cases hst

theorem runSteps_checks {later : List (Step σ)} (hl : later.all Step.isCheck) {v x : Value}
    {s t : Scene σ} (h : (runSteps later v).runIn s = (.ok x, t)) :
    x = v ∧ (v = .undefined → Step.required ∉ later) := by
  induction later generalizing s with
  | nil =>
    cases h
    exact ⟨rfl, fun _ => List.not_mem_nil⟩
  | cons st later ih =>
    obtain ⟨hst, hl'⟩ : st.isCheck ∧ later.all Step.isCheck := by simpa using hl
    rw [runSteps_cons, Call.runIn_bind_eq_ok_iff] at h
    obtain ⟨y, s', hy, hx⟩ := h
    obtain ⟨rfl, hne⟩ := Step.run_check hst hy
    obtain ⟨rfl, hnone⟩ := ih hl' hx
    refine ⟨rfl, fun hv hmem => ?_⟩
    rcases List.mem_cons.1 hmem with heq | hmem'
    · exact hne hv heq.symm
    · exact hnone hv hmem'

/-- Checks hand on the result of the step before them. -/
theorem runSteps_cons_checks {st : Step σ} {later : List (Step σ)} (hl : later.all Step.isCheck)
    {v x : Value} {s t : Scene σ} (h : (runSteps (st :: later) v).runIn s = (.ok x, t)) :
    ∃ s', (st.run v).runIn s = (.ok x, s') ∧ (runSteps later x).runIn s' = (.ok x, t) := by
  rw [runSteps_cons, Call.runIn_bind_eq_ok_iff] at h
  obtain ⟨y, s', hy, hx⟩ := h
  obtain ⟨rfl, -⟩ := runSteps_checks hl hx
  exact ⟨s', hy, hx⟩

/-- What follows the first step of a plain chain keeps its result, and an absent one only if
nothing requires it. -/
theorem run_first {st : Step σ} {later : List (Step σ)} (hl : later.all Step.isCheck)
    {v x : Value} {s t : Scene σ} (h : (runSteps (st :: later) v).runIn s = (.ok x, t)) :
    (∃ s', (st.run v).runIn s = (.ok x, s')) ∧ (x = .undefined → Step.required ∉ later) := by
  obtain ⟨s', hfirst, hlater⟩ := runSteps_cons_checks hl h
  exact ⟨⟨s', hfirst⟩, (runSteps_checks hl hlater).2⟩

theorem DateTime.offset_ofMicros? {n : Int} {t : DateTime} (h : ofMicros? n = some t) :
    t.offset = some 0 := by
  unfold ofMicros? at h
  split at h
  · cases h
    rfl
  · cases h

theorem DateTime.offset_toUniversal? {t u : DateTime} (h : t.toUniversal? = some u) :
    u.offset = some 0 := by
  unfold toUniversal? at h
  split at h
  · cases h
    rfl
  · exact offset_ofMicros? h

theorem DateTime.offset_ofText? {text : String} {t : DateTime} (h : ofText? text = some t) :
    t.offset = some 0 := by
  unfold ofText? at h
  obtain ⟨⟨u, offset?⟩, -, hu⟩ := Option.bind_eq_some_iff.1 h
  cases offset? with
  | none =>
    cases hu
    rfl
  | some offset => exact offset_ofMicros? hu

theorem DateTime.offset_ofEpochMillis? {x : Binary64} {t : DateTime}
    (h : ofEpochMillis? x = some t) : t.offset = some 0 := by
  unfold ofEpochMillis? at h
  obtain ⟨micros, -, ht⟩ := Option.bind_eq_some_iff.1 h
  exact offset_ofMicros? ht

/-- Instants are in universal time. -/
theorem Value.offset_toInstant {v : Value} {t : DateTime} (h : v.toInstant = .ok (some t)) :
    t.offset = some 0 := by
  unfold toInstant at h
  split at h
  · exact DateTime.offset_toUniversal? (by simpa using h)
  · cases h
    rfl
  · exact DateTime.offset_ofText? (by simpa using h)
  · split at h
    · cases h
    · rename_i r _
      cases r with
      | error f => cases h
      | ok x => exact DateTime.offset_ofEpochMillis? (by simpa [Except.map] using h)

theorem checkDate_eq_ok {v x : Value} (h : checkDate v = .ok x) :
    (v = .undefined ∧ x = .undefined) ∨ ∃ t, x = .datetime t ∧ t.offset = some 0 := by
  unfold checkDate at h
  split at h
  · cases h
    exact .inl ⟨rfl, rfl⟩
  · split at h
    · rename_i t ht
      cases h
      exact .inr ⟨t, rfl, Value.offset_toInstant ht⟩
    · cases h
    · cases h

theorem typed_of_tag {tag : TypeTag} {later : List (Step σ)} (ht : tag ∈ TypeTag.primitive)
    (hl : later.all Step.isCheck) {v x : Value} {s t : Scene σ}
    (h : (runSteps (.typeOf tag :: later) v).runIn s = (.ok x, t)) :
    Typed (.typeOf tag :: later) v x := by
  obtain ⟨⟨s', hfirst⟩, hnone⟩ := run_first hl h
  rw [Step.run, Call.runIn_ofExcept, Prod.mk.injEq] at hfirst
  obtain ⟨rfl, rfl | htag⟩ := checkTag_eq_ok hfirst.1
  · exact .absent (by simpa using hnone rfl)
  · exact .tagged ht hl htag

theorem typed_of_array {later : List (Step σ)} (hl : later.all Step.isCheck) {v x : Value}
    {s t : Scene σ} (h : (runSteps (.array :: later) v).runIn s = (.ok x, t)) :
    Typed (.array :: later) v x := by
  obtain ⟨⟨s', hfirst⟩, hnone⟩ := run_first hl h
  rw [Step.run, Call.runIn_ofExcept, Prod.mk.injEq] at hfirst
  obtain ⟨rfl, rfl | ⟨xs, rfl⟩ | ⟨xs, rfl⟩⟩ := checkArray_eq_ok hfirst.1
  · exact .absent (by simpa using hnone rfl)
  · exact .list
  · exact .tuple

theorem typed_of_date {later : List (Step σ)} (hl : later.all Step.isCheck) {v x : Value}
    {s t : Scene σ} (h : (runSteps (.date :: later) v).runIn s = (.ok x, t)) :
    Typed (.date :: later) v x := by
  obtain ⟨⟨s', hfirst⟩, hnone⟩ := run_first hl h
  rw [Step.run, Call.runIn_ofExcept, Prod.mk.injEq] at hfirst
  obtain ⟨rfl, rfl⟩ | ⟨u, rfl, hu⟩ := checkDate_eq_ok hfirst.1
  · exact .absent (by simpa using hnone rfl)
  · exact .date hu

/-- An absent value passes a shape, and any other that passes has fields that all pass. -/
theorem run_fields_eq_ok {declared : List (String × Field σ)} {v x : Value} {s t : Scene σ}
    (h : (Step.run (.fields declared) v).runIn s = (.ok x, t)) :
    (v = .undefined ∧ x = .undefined) ∨
      ∃ results, FieldRuns v declared s (results.map fun e => (e.1, .ok e.2)) t ∧
        x = .record results := by
  by_cases hv : v.isUndefined
  · rw [Step.run, hv] at h
    cases h
    exact .inl ⟨Value.isUndefined_iff.1 hv, Value.isUndefined_iff.1 hv⟩
  · have hv' : v.isUndefined = false := by simpa using hv
    obtain ⟨reports, t', hruns⟩ | ⟨t', hhalt⟩ := fieldRuns_or_halt v declared s
    · rw [runIn_fields hv' hruns, Prod.mk.injEq] at h
      obtain ⟨hok, rfl⟩ := h
      obtain ⟨results, rfl, rfl⟩ := collectFields_eq_ok_iff.1 hok
      exact .inr ⟨results, hruns, rfl⟩
    · rw [runIn_fields_halt hv' hhalt] at h
      cases h

mutual
/-- What a plain chain returns is of its type. -/
theorem Plain.typed {steps : Validator σ} (hp : Plain steps) {v x : Value} {s t : Scene σ}
    (h : (runSteps steps v).runIn s = (.ok x, t)) : Typed steps v x := by
  cases hp with
  | typeOf ht hl => exact typed_of_tag ht hl h
  | array hl => exact typed_of_array hl h
  | date hl => exact typed_of_date hl h
  | shape hd hl =>
    rw [runSteps_cons, Call.runIn_bind_eq_ok_iff] at h
    obtain ⟨y, s', hy, hx⟩ := h
    rw [Step.run, Call.runIn_ofExcept, Prod.mk.injEq] at hy
    obtain ⟨rfl, -⟩ := checkTag_eq_ok hy.1
    obtain ⟨⟨s'', hfields⟩, hnone⟩ := run_first hl hx
    obtain ⟨rfl, rfl⟩ | ⟨results, hruns, rfl⟩ := run_fields_eq_ok hfields
    · exact .absent (by simpa using hnone rfl)
    · exact .shape (hd.typed hruns)

/-- What plain fields return is of their types, field by field. -/
theorem PlainFields.typed {declared : List (String × Field σ)} (hp : PlainFields declared)
    {v : Value} {results : List (String × Value)} {s t : Scene σ}
    (h : FieldRuns v declared s (results.map fun e => (e.1, .ok e.2)) t) :
    TypedFields declared v results := by
  cases hp with
  | nil =>
    cases results with
    | nil => exact .nil
    | cons e es => cases h
  | cons hsteps hrest =>
    cases results with
    | nil => cases h
    | cons e es =>
      obtain ⟨k, x⟩ := e
      cases h with
      | cons hrun hr hruns =>
        rw [reportOf_eq_ok_ok_iff.1 hr] at hrun
        rw [Field.run, Call.runIn_bind_eq_ok_iff] at hrun
        obtain ⟨w, s', hw, hx⟩ := hrun
        rw [Call.runIn_ofExcept, Prod.mk.injEq] at hw
        exact .cons hw.1 (hsteps.typed hx) (hrest.typed hruns)
end

/-- A shape of plain fields returns for a dictionary the results of its fields. -/
theorem PlainFields.typed_shape {declared : List (String × Field σ)} (hd : PlainFields declared)
    {es : Entries} {x : Value} {s t : Scene σ}
    (h : ((Validator.root.shape declared).validate (.dict es)).runIn s = (.ok x, t)) :
    ∃ results, x = .record results ∧ TypedFields declared (.dict es) results := by
  have hp : Plain (Validator.root.shape declared) := .shape hd rfl
  cases hp.typed h with
  | tagged ht hl hx => cases hl
  | shape hresults => exact ⟨_, rfl, hresults⟩

namespace Action

/-- The entries a call validates: on each side the supplied ones over the defaults. -/
def Merges (a : Action σ) (jacks props : Value) (s : Scene σ) (J P : Entries) : Prop :=
  ∃ dj dp t, a.defaults.runIn s = (.ok (dj, dp), t) ∧
    Entries.extend (.dict dj) jacks = .ok J ∧ Entries.extend (.dict dp) props = .ok P

/-- A call of an action with plain fields refuses, or its handler sees under every declared name a
value of the declared type, at any depth, and sees no other names. -/
theorem performs_on_typed {a : Action σ} (hj : PlainFields a.descriptor.jackTypes)
    (hp : PlainFields a.descriptor.propTypes) (jacks props : Value) (s : Scene σ) :
    ((∃ f t, a.Refuses jacks props s f t) ∨ ∃ j p t, a.Performs jacks props s j p t) ∧
      ∀ j p t, a.Performs jacks props s j p t →
        ∃ J P js ps, a.Merges jacks props s J P ∧
          j = .record js ∧ TypedFields a.descriptor.jackTypes (.dict J) js ∧
          p = .record ps ∧ TypedFields a.descriptor.propTypes (.dict P) ps := by
  refine ⟨a.refuses_or_performs jacks props s, fun j p t h => ?_⟩
  obtain ⟨⟨dj, dp⟩, s₁, hd, hboth⟩ := prepare_eq_ok (performs_iff.1 h)
  obtain ⟨J, P, s₂, s₃, hJ, hP, hvj, hvp⟩ := sanitize_eq_ok hboth
  obtain ⟨js, rfl, hjs⟩ := hj.typed_shape hvj
  obtain ⟨ps, rfl, hps⟩ := hp.typed_shape hvp
  exact ⟨J, P, js, ps, ⟨dj, dp, s₁, hd, hJ, hP⟩, rfl, hjs, rfl, hps⟩

/-- An action that books a guest at a time. -/
def booking : Action Unit where
  number := 0
  descriptor := {
    name := "Book"
    description := "Books a guest"
    jackTypes := [("nights", .checked Validator.root.number)]
    propTypes := [("guest", .checked (Validator.root.shape
        [("name", .checked Validator.root.string.required),
         ("tags", .checked Validator.root.array)]).required),
      ("at", .checked Validator.root.date.required)]
    perform := fun _ p => pure p
    defaultJacks? := none
    defaultProps? := none }

theorem booking_performs_on_typed :
    let guest := Value.record [("name", .str "Ada"), ("tags", .undefined)]
    let props := Value.record [("at", .datetime ⟨⟨2000, 1, 1⟩, 0, 30, 0, 0, some 3600⟩),
      ("guest", .record [("name", .str "Ada"), ("age", .int 36)])]
    let p := Value.record
      [("guest", guest), ("at", .datetime ⟨⟨1999, 12, 31⟩, 23, 30, 0, 0, some 0⟩)]
    ∃ J P js ps, booking.Merges .null props (.initial ()) J P ∧
      Value.record [("nights", .undefined)] = .record js ∧
      TypedFields booking.descriptor.jackTypes (.dict J) js ∧
      p = .record ps ∧ TypedFields booking.descriptor.propTypes (.dict P) ps := by
  intro guest props p
  have hj : PlainFields booking.descriptor.jackTypes := .cons (.typeOf (by decide) rfl) .nil
  have hp : PlainFields booking.descriptor.propTypes :=
    .cons (.shape (.cons (.typeOf (by decide) rfl) (.cons (.array rfl) .nil)) rfl)
      (.cons (.date rfl) .nil)
  have hperforms : (booking.prepare .null props).runIn (.initial ()) =
      (.ok (.record [("nights", .undefined)], p), _) := rfl
  exact (performs_on_typed hj hp .null props (.initial ())).2 _ _ _ (performs_iff.2 hperforms)

end Action
end CheckedActions
