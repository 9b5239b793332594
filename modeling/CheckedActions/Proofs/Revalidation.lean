import CheckedActions.Proofs.Coercion

/-!
Validating what was validated. The result of a plain chain passes the chain again, unchanged at
every depth: what only checks has handed on the value it found good, a moment in universal time
stays as it is, and a shape finds under each declared name the result it has put there.
-/

namespace CheckedActions

variable {σ : Type}

namespace Value

/-- What comes of reading field after field, starting with the value itself. -/
inductive Reaches : Value → Value → Prop
  | self {v} : Reaches v v
  | field {v k w x} (hw : v.readField k = .ok w) (h : Reaches w x) : Reaches v x

/-- The value is proper, and so is whatever is read from it at any depth. -/
def ProperThroughout (v : Value) : Prop := ∀ x, v.Reaches x → x.IsProper

theorem ProperThroughout.isProper {v : Value} (h : v.ProperThroughout) : v.IsProper := h v .self

theorem ProperThroughout.field {v w : Value} (h : v.ProperThroughout) {k : String}
    (hw : v.readField k = .ok w) : w.ProperThroughout :=
  fun x hx => h x (.field hw hx)

theorem properThroughout_of_fields {v : Value} (hv : v.IsProper)
    (h : ∀ k w, v.readField k = .ok w → w.ProperThroughout) : v.ProperThroughout := by
  intro x hx
  cases hx with
  | self => exact hv
  | field hw hx => exact h _ _ hw x hx

theorem properThroughout_undefined : undefined.ProperThroughout := by
  intro x hx
  generalize hv : undefined = v at hx
  induction hx with
  | self => exact hv ▸ trivial
  | field hw h ih =>
    subst hv
    cases hw
    exact ih rfl

/-- Values without fields. -/
theorem properThroughout_of_bare {v : Value} (hv : v.IsProper)
    (h : ∀ k, v.readField k = .ok undefined) : v.ProperThroughout := by
  apply properThroughout_of_fields hv
  intro k w hw
  rw [h, Except.ok.injEq] at hw
  exact hw ▸ properThroughout_undefined

/-- What is looked up by name is proper throughout if everything stored is. -/
theorem properThroughout_of_lookup {v : Value} (hv : v.IsProper)
    {fields : List (String × Value)}
    (hread : ∀ k, v.readField k = .ok ((fields.lookup k).getD undefined))
    (h : ∀ e ∈ fields, e.2.ProperThroughout) : v.ProperThroughout := by
  refine properThroughout_of_fields hv fun k w hw => ?_
  rw [hread, Except.ok.injEq] at hw
  cases hl : fields.lookup k with
  | none =>
    rw [hl] at hw
    exact hw ▸ properThroughout_undefined
  | some x =>
    obtain ⟨l, r, rfl, -⟩ := List.lookup_eq_some_iff.1 hl
    rw [hl] at hw
    have hx := h (k, x) (by simp)
    exact hw ▸ hx

theorem properThroughout_record {fields : List (String × Value)}
    (h : ∀ e ∈ fields, e.2.ProperThroughout) : (record fields).ProperThroughout :=
  properThroughout_of_lookup trivial (readField_record fields) h

theorem properThroughout_obj {fields : List (String × Value)}
    (h : ∀ e ∈ fields, e.2.ProperThroughout) : (obj fields).ProperThroughout :=
  properThroughout_of_lookup trivial (fun _ => rfl) h

theorem properThroughout_datetime {t : DateTime} (h : t.Valid) :
    (datetime t).ProperThroughout := by
  refine properThroughout_of_fields h fun k w hw => ?_
  have hw : ((t.field? k).map int).getD undefined = w := Except.ok.inj hw
  cases hf : t.field? k with
  | none =>
    rw [hf] at hw
    exact hw ▸ properThroughout_undefined
  | some n =>
    rw [hf] at hw
    exact hw ▸ properThroughout_of_bare trivial fun _ => rfl

end Value

open Value

/-- The step hands on the value unchanged in every scene, and leaves the scene as it is. -/
def Step.Keeps (st : Step σ) (x : Value) : Prop := ∀ s, (st.run x).runIn s = (.ok x, s)

def Validator.Keeps (steps : Validator σ) (x : Value) : Prop :=
  ∀ s, (steps.validate x).runIn s = (.ok x, s)

theorem Validator.keeps_nil (x : Value) : Validator.Keeps ([] : Validator σ) x := fun _ => rfl

theorem Validator.keeps_cons {st : Step σ} {later : Validator σ} {x : Value} (hst : st.Keeps x)
    (hl : later.Keeps x) : Validator.Keeps (st :: later) x := by
  intro s
  rw [Validator.validate, runSteps_cons, Call.runIn_bind_ok (hst s)]
  exact hl s

/-- A check looks at nothing but the value. -/
theorem Step.exists_run_eq {st : Step σ} (hst : st.isCheck) (v : Value) :
    ∃ r, st.run v = Call.ofExcept r := by
  cases st with
  | typeOf tag => exact ⟨_, rfl⟩
  | array => exact ⟨_, rfl⟩
  | required => exact ⟨_, rfl⟩
  | _ => cases hst

/-- What a check let pass, it lets pass again. -/
theorem Step.keeps_check {st : Step σ} (hst : st.isCheck) {v x : Value} {s t : Scene σ}
    (h : (st.run v).runIn s = (.ok x, t)) : st.Keeps x := by
  obtain ⟨rfl, -⟩ := Step.run_check hst h
  obtain ⟨r, hr⟩ := Step.exists_run_eq hst x
  rw [hr, Call.runIn_ofExcept, Prod.mk.injEq] at h
  intro s'
  rw [hr, Call.runIn_ofExcept, h.1]

theorem Validator.keeps_checks {later : Validator σ} (hl : later.all Step.isCheck) {v x : Value}
    {s t : Scene σ} (h : (runSteps later v).runIn s = (.ok x, t)) : later.Keeps x := by
  induction later generalizing v s with
  | nil => exact keeps_nil x
  | cons st later ih =>
    obtain ⟨hst, hl'⟩ : st.isCheck ∧ later.all Step.isCheck := by simpa using hl
    obtain ⟨s', hfirst, hlater⟩ := runSteps_cons_checks hl' h
    exact keeps_cons (Step.keeps_check hst hfirst) (ih hl' hlater)

/-- A date that was made of a proper value is made of itself. -/
theorem checkDate_again {v x : Value} (hv : v.IsProper) (h : checkDate v = .ok x) :
    checkDate x = .ok x := by
  by_cases hpresent : v = .undefined
  · subst hpresent
    cases h
    rfl
  · rw [checkDate_eq hpresent] at h
    obtain ⟨hlarge, hsmall⟩ := toInstant_cases hv
    by_cases hbeyond : v.BeyondDouble
    · obtain ⟨isFraction, hfails⟩ := hlarge hbeyond
      simp [hfails] at h
    · obtain ⟨o, ho, huniversal⟩ := hsmall hbeyond
      cases o with
      | none => simp [ho] at h
      | some u =>
        have hx : x = datetime u := by simpa [ho, eq_comm] using h
        have hsame : (datetime u).toInstant = .ok (some u) :=
          congrArg Except.ok (huniversal u rfl).toUniversal?_eq
        simp [hx, checkDate, hsame]

theorem Step.keeps_date {v x : Value} (hv : v.IsProper) {s t : Scene σ}
    (h : (Step.run .date v).runIn s = (.ok x, t)) : (Step.date : Step σ).Keeps x := by
  rw [Step.run, Call.runIn_ofExcept, Prod.mk.injEq] at h
  intro s'
  rw [Step.run, Call.runIn_ofExcept, checkDate_again hv h.1]

/-- A type check keeps values of its type, and absent ones. -/
theorem Step.keeps_typeOf {tag : TypeTag} {x : Value} (h : x = .undefined ∨ x.tag = tag) :
    (Step.typeOf tag : Step σ).Keeps x := by
  intro s
  rw [Step.run, Call.runIn_ofExcept, checkTag, if_pos (h.imp_left isUndefined_iff.2)]

theorem Step.keeps_fields_undefined (declared : List (String × Field σ)) :
    (Step.fields declared).Keeps .undefined := fun _ => rfl

/-- Fields keep a record of results if each of them keeps its own. -/
theorem Step.keeps_fields {declared : List (String × Field σ)} {results : List (String × Value)}
    (h : ∀ s, FieldRuns (.record results) declared s (results.map fun e => (e.1, .ok e.2)) s) :
    (Step.fields declared).Keeps (.record results) := by
  intro s
  rw [runIn_fields rfl (h s), collectFields_eq_ok_iff.2 ⟨results, rfl, rfl⟩]

/-- A field keeps what stands under its name if its chain does. -/
theorem Validator.Keeps.run_field {steps : Validator σ} {x : Value} (hx : steps.Keeps x)
    {w : Value} {k : String} (hw : w.readField k = .ok x) (s : Scene σ) :
    ((Field.checked steps).run w k).runIn s = (.ok x, s) := by
  have hread : (Call.ofExcept (w.readField k) : Call σ Value).runIn s = (.ok x, s) := by
    rw [Call.runIn_ofExcept, hw]
  rw [Field.run, Call.runIn_bind_ok hread]
  exact hx s

theorem Value.readField_of_mem {results : List (String × Value)}
    (hd : (results.map (·.1)).Nodup) {e : String × Value} (he : e ∈ results) :
    (record results).readField e.1 = .ok e.2 := by
  obtain ⟨l, r, rfl⟩ := List.append_of_mem he
  have hfirst : ∀ p ∈ l, p.1 ≠ e.1 := by
    intro p hp heq
    rw [List.map_append, List.nodup_append] at hd
    exact hd.2.2 p.1 (List.mem_map_of_mem hp) e.1 (by simp) heq
  have hlookup : (l ++ e :: r).lookup e.1 = some e.2 := by
    refine List.lookup_eq_some_iff.2 ⟨l, r, rfl, fun p hp => ?_⟩
    simpa using (hfirst p hp).symm
  rw [readField_record, hlookup]
  rfl

mutual
/-- The result of a plain chain on a proper value is kept by the chain. -/
theorem Plain.keeps {steps : Validator σ} (hp : Plain steps) (hd : stepNamesDistinct steps)
    {v x : Value} (hv : v.ProperThroughout) {s t : Scene σ}
    (h : (runSteps steps v).runIn s = (.ok x, t)) : steps.Keeps x := by
  cases hp with
  -- a chain that begins with a check consists of checks
  | typeOf ht hl => exact Validator.keeps_checks (by simpa [Step.isCheck] using hl) h
  | array hl => exact Validator.keeps_checks (by simpa [Step.isCheck] using hl) h
  | date hl =>
    obtain ⟨s', hdate, hlater⟩ := runSteps_cons_checks hl h
    exact Validator.keeps_cons (Step.keeps_date hv.isProper hdate)
      (Validator.keeps_checks hl hlater)
  | @shape declared later hplain hl =>
    obtain ⟨hnames, hinner⟩ : (declared.map (·.1)).Nodup ∧ fieldNamesDistinct declared := by
      simp only [stepNamesDistinct, Step.namesDistinct, Bool.and_eq_true, decide_eq_true_eq] at hd
      exact hd.2.1
    rw [runSteps_cons, Call.runIn_bind_eq_ok_iff] at h
    obtain ⟨y, s', hy, hx⟩ := h
    rw [Step.run, Call.runIn_ofExcept, Prod.mk.injEq] at hy
    obtain ⟨rfl, -⟩ := checkTag_eq_ok hy.1
    obtain ⟨s'', hfields, hlater⟩ := runSteps_cons_checks hl hx
    have hkept := Validator.keeps_checks hl hlater
    obtain ⟨rfl, rfl⟩ | ⟨results, hruns, rfl⟩ := run_fields_eq_ok hfields
    · exact Validator.keeps_cons (Step.keeps_typeOf (.inl rfl))
        (Validator.keeps_cons (Step.keeps_fields_undefined declared) hkept)
    · have hresults : (results.map (·.1)).Nodup := by
        have hsame := hruns.names
        rw [List.map_map] at hsame
        exact hsame ▸ hnames
      have hkeeps := hplain.keeps hinner hv hruns fun e he => readField_of_mem hresults he
      exact Validator.keeps_cons (Step.keeps_typeOf (.inr rfl))
        (Validator.keeps_cons (Step.keeps_fields hkeeps) hkept)

/-- Plain fields keep their results wherever these stand under the declared names. -/
theorem PlainFields.keeps {declared : List (String × Field σ)} (hp : PlainFields declared)
    (hd : fieldNamesDistinct declared) {v w : Value} (hv : v.ProperThroughout)
    {results : List (String × Value)} {s t : Scene σ}
    (h : FieldRuns v declared s (results.map fun e => (e.1, .ok e.2)) t)
    (hw : ∀ e ∈ results, w.readField e.1 = .ok e.2) (s' : Scene σ) :
    FieldRuns w declared s' (results.map fun e => (e.1, .ok e.2)) s' := by
  cases hp with
  | nil =>
    cases results with
    | nil => exact .nil s'
    | cons e es => cases h
  | @cons k steps rest hsteps hrest =>
    obtain ⟨hnames, hnames'⟩ : stepNamesDistinct steps ∧ fieldNamesDistinct rest := by
      simpa [fieldNamesDistinct, Field.namesDistinct] using hd
    cases results with
    | nil => cases h
    | cons e es =>
      obtain ⟨k, x⟩ := e
      obtain ⟨hx, hes⟩ := List.forall_mem_cons.1 hw
      cases h with
      | cons hrun hr hruns =>
        rw [reportOf_eq_ok_ok_iff.1 hr] at hrun
        rw [Field.run, Call.runIn_bind_eq_ok_iff] at hrun
        obtain ⟨y, s'', hy, hrun⟩ := hrun
        rw [Call.runIn_ofExcept, Prod.mk.injEq] at hy
        have hkeeps := hsteps.keeps hnames (hv.field hy.1) hrun
        exact .cons (hkeeps.run_field hx s') rfl (hrest.keeps hnames' hv hruns hes s')
end

/-- Validation is idempotent on what it returns. The result of a plain chain that declares no name
twice, on a value whose dates all exist, passes the chain again and comes out the same at every
depth, with absent fields and in the same order, in whatever scene, which it leaves as it is. -/
theorem Plain.validate_again {steps : Validator σ} (hp : Plain steps)
    (hd : stepNamesDistinct steps) {v w : Value} (hv : v.ProperThroughout) {s t : Scene σ}
    (h : (steps.validate v).runIn s = (.ok w, t)) (s' : Scene σ) :
    (steps.validate w).runIn s' = (.ok w, s') :=
  hp.keeps hd hv h s'

/-- The order of a guest who arrives on a date. -/
def arrival : Validator Unit := (Validator.root.shape
  [("guest", .checked (Validator.root.shape
      [("name", .checked Validator.root.string.required),
       ("tags", .checked Validator.root.array)]).required),
   ("at", .checked (Validator.root.date.typeOf .object)),
   ("note", .checked Validator.root.string)]).required

/-- An arrival with a field that is not declared comes out without it, with a moment in universal
time and with the fields that are absent, and so it does again. -/
theorem arrival_validate_again :
    let v := Value.record [("at", .datetime ⟨⟨2000, 1, 1⟩, 0, 30, 0, 0, some 3600⟩),
      ("guest", .obj [("name", .str "Ada")]), ("age", .int 36)]
    let w := Value.record [("guest", .record [("name", .str "Ada"), ("tags", .undefined)]),
      ("at", .datetime ⟨⟨1999, 12, 31⟩, 23, 30, 0, 0, some 0⟩), ("note", .undefined)]
    Plain arrival ∧ stepNamesDistinct arrival ∧ v.ProperThroughout ∧
      (arrival.validate v).runIn (.initial ()) = (.ok w, .initial ()) ∧
      (arrival.validate w).runIn (.initial ()) = (.ok w, .initial ()) := by
  intro v w
  have hp : Plain arrival := .shape
    (.cons (.shape (.cons (.typeOf (by decide) rfl) (.cons (.array rfl) .nil)) rfl)
      (.cons (.date rfl) (.cons (.typeOf (by decide) rfl) .nil))) rfl
  have hd : stepNamesDistinct arrival := by decide
  have hat : DateTime.Valid ⟨⟨2000, 1, 1⟩, 0, 30, 0, 0, some 3600⟩ :=
    ⟨by decide, by decide, by decide⟩
  have hname : (Value.str "Ada").ProperThroughout := properThroughout_of_bare trivial fun _ => rfl
  have hage : (Value.int 36).ProperThroughout := properThroughout_of_bare trivial fun _ => rfl
  have hguest : (Value.obj [("name", .str "Ada")]).ProperThroughout :=
    properThroughout_obj (by simp [hname])
  have hv : v.ProperThroughout := by
    apply properThroughout_record
    simp [properThroughout_datetime hat, hage, hguest]
  have hrun : (arrival.validate v).runIn (.initial ()) = (.ok w, .initial ()) := rfl
  exact ⟨hp, hd, hv, hrun, hp.validate_again hd hv hrun (.initial ())⟩

end CheckedActions
