import CheckedActions.Proofs.Chains
import CheckedActions.Proofs.Revalidation

/-!
Absent values. A chain of checks, conversions, shapes and optional functions keeps an absent value,
and the same chain with a requirement anywhere in it refuses one. Neither calls a function, and
neither looks at what the fields of a shape require.
-/

namespace CheckedActions

variable {σ : Type}

namespace Extension

/-- Extensions by which an absent value is passed over. -/
def isOptional : Extension σ → Bool
  | .required => false
  | .compose .. => false
  | _ => true

def isRequired : Extension σ → Bool
  | .required => true
  | _ => false

end Extension

namespace Validator

/-- A chain is made if its first step is and the rest of it is, which then stand in a row. -/
theorem extend_cons_eq_ok_iff {x : Extension σ} {xs : List (Extension σ)} {c : Validator σ} :
    root.extend (x :: xs) = .ok c ↔
      ∃ u d, root.extendOnce x = .ok u ∧ root.extend xs = .ok d ∧ c = u ++ d := by
  simp only [extend_cons, bind_eq_ok_iff]
  constructor
  · rintro ⟨u, hu, hc⟩
    obtain ⟨d, hd, rfl⟩ := extend_ok hc
    exact ⟨u, d, hu, hd, rfl⟩
  · rintro ⟨u, d, hu, hd, rfl⟩
    exact ⟨u, hu, by rw [extend_eq, hd]; rfl⟩

theorem Keeps.append {a c : Validator σ} {x : Value} (ha : a.Keeps x) (hc : c.Keeps x) :
    Validator.Keeps (a ++ c) x := by
  intro s
  rw [validate_append, Call.runIn_bind_ok (ha s)]
  exact hc s

theorem keeps_one {st : Step σ} {x : Value} (h : st.Keeps x) : Validator.Keeps [st] x :=
  keeps_cons h (keeps_nil x)

theorem typeOf?_eq_ok {expected : Value} {u : Validator σ} (h : root.typeOf? expected = .ok u) :
    ∃ tag, expected = .str tag.name ∧ u = root.typeOf tag := by
  unfold typeOf? at h
  split at h
  · split at h
    · rename_i tag htag
      cases h
      have hname := List.find?_some htag
      exact ⟨tag, congrArg Value.str (of_decide_eq_true hname).symm, rfl⟩
    · cases h
  · obtain ⟨_, -, hthrow⟩ := bind_eq_ok_iff.1 h
    cases hthrow

theorem keeps_absent_typeOf (tag : TypeTag) : (root.typeOf tag : Validator σ).Keeps .undefined :=
  keeps_one (Step.keeps_typeOf (.inl rfl))

/-- Everything but a requirement and a composed function lets an absent value pass. -/
theorem keeps_absent_once {x : Extension σ} (hx : x.isOptional) {u : Validator σ}
    (hu : root.extendOnce x = .ok u) : u.Keeps .undefined := by
  cases x with
  | tag t =>
    cases hu
    exact keeps_absent_typeOf t
  | typeOf expected =>
    obtain ⟨tag, -, rfl⟩ := typeOf?_eq_ok hu
    exact keeps_absent_typeOf tag
  | shape declared =>
    obtain ⟨names, -, hu⟩ := bind_eq_ok_iff.1 hu
    cases hu
    exact (keeps_absent_typeOf .object).append (keeps_one (Step.keeps_fields_undefined _))
  | array | date | optional =>
    cases hu
    exact keeps_one fun _ => rfl
  | required | compose => cases hx

theorem keeps_absent {xs : List (Extension σ)} (hx : ∀ x ∈ xs, x.isOptional) {c : Validator σ}
    (hc : root.extend xs = .ok c) : c.Keeps .undefined := by
  induction xs generalizing c with
  | nil =>
    cases hc
    exact keeps_nil .undefined
  | cons x xs ih =>
    obtain ⟨hone, hrest⟩ := List.forall_mem_cons.1 hx
    obtain ⟨u, d, hu, hd, rfl⟩ := extend_cons_eq_ok_iff.1 hc
    exact (keeps_absent_once hone hu).append (ih hrest hd)

/-- A chain with a requirement refuses an absent value there at the latest. -/
theorem refuses_absent {zs : List (Extension σ)}
    (hz : ∀ z ∈ zs, z.isRequired = false → z.isOptional) (hreq : ∃ z ∈ zs, z.isRequired)
    {d : Validator σ} (hd : root.extend zs = .ok d) (s : Scene σ) :
    (d.validate .undefined).runIn s = (.error .required, s) := by
  -- up to the first requirement every step keeps the absent value, and there the chain ends
  induction zs generalizing d with
  | nil =>
    obtain ⟨z, hmem, -⟩ := hreq
    nomatch hmem
  | cons z zs ih =>
    obtain ⟨hone, hrest⟩ := List.forall_mem_cons.1 hz
    obtain ⟨u, e, hu, he, rfl⟩ := extend_cons_eq_ok_iff.1 hd
    rw [validate_append]
    cases hr : z.isRequired with
    | true =>
      cases z with
      | required =>
        cases hu
        exact Call.runIn_bind_error rfl _
      | _ => cases hr
    | false =>
      have hlater : ∃ z ∈ zs, z.isRequired := by simpa [hr] using hreq
      rw [Call.runIn_bind_ok (keeps_absent_once (hone hr) hu s)]
      exact ih hrest hlater he

/-- Requirements can be inserted wherever one likes. -/
theorem exists_extend_of_filter {zs : List (Extension σ)} {c : Validator σ}
    (hc : root.extend (zs.filter (!·.isRequired)) = .ok c) : ∃ d, root.extend zs = .ok d := by
  induction zs generalizing c with
  | nil => exact ⟨[], rfl⟩
  | cons z zs ih =>
    cases hr : z.isRequired with
    | true =>
      rw [List.filter_cons_of_neg (by simp [hr])] at hc
      obtain ⟨d, hd⟩ := ih hc
      cases z with
      | required => exact ⟨_, extend_cons_eq_ok_iff.2 ⟨root.required, d, rfl, hd, rfl⟩⟩
      | _ => cases hr
    | false =>
      rw [List.filter_cons_of_pos (by simp [hr])] at hc
      obtain ⟨u, e, hu, he, -⟩ := extend_cons_eq_ok_iff.1 hc
      obtain ⟨d, hd⟩ := ih he
      exact ⟨_, extend_cons_eq_ok_iff.2 ⟨u, d, hu, hd, rfl⟩⟩

/-- Absence passes through every optional chain. Whatever its functions do and whatever the fields
of its shapes require, it hands on an absent value and leaves the scene as it is, so that none of
its functions is called, and so it does when it is given no value. The same chain with one or more
requirements inserted anywhere can be made too. It refuses an absent value as one that is required,
and again leaves the scene as it is. -/
theorem validate_absent {xs : List (Extension σ)} (hx : ∀ x ∈ xs, x.isOptional)
    {c : Validator σ} (hc : root.extend xs = .ok c) :
    (∀ s, (c.validate .undefined).runIn s = (.ok .undefined, s) ∧
      c.validate.runIn s = (.ok .undefined, s)) ∧
    ∀ zs : List (Extension σ), zs.filter (!·.isRequired) = xs → (∃ z ∈ zs, z.isRequired) →
      ∃ d, root.extend zs = .ok d ∧
        ∀ s, (d.validate .undefined).runIn s = (.error .required, s) ∧
          d.validate.runIn s = (.error .required, s) := by
  constructor
  · intro s
    have hkeeps := keeps_absent hx hc s
    exact ⟨hkeeps, hkeeps⟩
  · rintro zs rfl hreq
    obtain ⟨d, hd⟩ := exists_extend_of_filter hc
    refine ⟨d, hd, fun s => ?_⟩
    have hz : ∀ z ∈ zs, z.isRequired = false → z.isOptional := by
      intro z hmem hr
      exact hx z (List.mem_filter.2 ⟨hmem, by simp [hr]⟩)
    have hrefuses := refuses_absent hz hreq hd s
    exact ⟨hrefuses, hrefuses⟩

/-- The fields of a shape with a required one, on which a function is called before. -/
def countedFields : Keyed (Field Nat) :=
  [(.str "name", .checked ((root.optional counting none).required))]

/-- Neither function is called on an absent value, in whatever way the chain requires one. -/
theorem counting_not_called :
    ∃ c d : Validator Nat,
      root.extend [.shape countedFields, .optional counting none] = .ok c ∧
      root.extend [.shape countedFields, .required, .optional counting none, .required] = .ok d ∧
      (c.validate .undefined).runIn (.initial 0) = (.ok .undefined, .initial 0) ∧
      c.validate.runIn (.initial 0) = (.ok .undefined, .initial 0) ∧
      (d.validate .undefined).runIn (.initial 0) = (.error .required, .initial 0) := by
  have hx : ∀ x ∈ [Extension.shape countedFields, .optional counting none], x.isOptional := by
    simp [Extension.isOptional]
  obtain ⟨hpasses, hrefuses⟩ := validate_absent hx rfl
  obtain ⟨d, hd, hfails⟩ := hrefuses
    [.shape countedFields, .required, .optional counting none, .required] rfl
    ⟨.required, by simp, rfl⟩
  exact ⟨_, d, rfl, hd, (hpasses (.initial 0)).1, (hpasses (.initial 0)).2, (hfails (.initial 0)).1⟩

end Validator
end CheckedActions
