import CheckedActions.Proofs.Workbench

/-!
Chains of steps are compositions. Whether further steps can be made does not depend on the validator
they extend, and the validator extended by them runs as itself and then, on its result, as a
validator made of these steps alone. If it fails, nothing else runs.
-/

namespace CheckedActions

variable {σ : Type}

/-- What a validator can be extended by. -/
inductive Extension (σ : Type) where
  | tag (t : TypeTag)
  | typeOf (expected : Value)
  | array
  | date
  | required
  | shape (declared : Keyed (Field σ))
  | compose (f : CustomStep σ) (label? : Option String)
  | optional (f : CustomStep σ) (label? : Option String)

namespace Validator

/-- The validator extended, if that can be made. -/
def extendOnce (v : Validator σ) : Extension σ → Except Failure (Validator σ)
  | .tag t => .ok (v.typeOf t)
  | .typeOf expected => v.typeOf? expected
  | .array => .ok v.array
  | .date => .ok v.date
  | .required => .ok v.required
  | .shape declared => v.shapeOf? declared
  | .compose f label? => .ok (v.compose f label?)
  | .optional f label? => .ok (v.optional f label?)

def extend (v : Validator σ) (xs : List (Extension σ)) : Except Failure (Validator σ) :=
  xs.foldlM extendOnce v

theorem typeOf?_eq (v : Validator σ) (expected : Value) :
    v.typeOf? expected = (root.typeOf? expected).map (v ++ ·) := by
  unfold typeOf?
  split
  · rename_i s
    cases TypeTag.ofName? s <;> rfl
  · cases expected.ifWritable () <;> rfl

theorem shape_eq (v : Validator σ) (declared : List (String × Field σ)) :
    v.shape declared = v ++ root.shape declared := by
  simp [shape, object, typeOf, root]

theorem shapeOf?_eq (v : Validator σ) (declared : Keyed (Field σ)) :
    v.shapeOf? declared = (root.shapeOf? declared).map (v ++ ·) := by
  unfold shapeOf?
  cases Value.texts declared.keys with
  | error f => rfl
  | ok names => exact congrArg Except.ok (shape_eq v _)

/-- One step can be made or not whatever it extends, and goes to the end. -/
theorem extendOnce_eq (v : Validator σ) (x : Extension σ) :
    v.extendOnce x = (root.extendOnce x).map (v ++ ·) := by
  cases x with
  | typeOf expected => exact typeOf?_eq v expected
  | shape declared => exact shapeOf?_eq v declared
  | _ => rfl

theorem extend_cons (v : Validator σ) (x : Extension σ) (xs : List (Extension σ)) :
    v.extend (x :: xs) = v.extendOnce x >>= fun u => u.extend xs := List.foldlM_cons

/-- Steps can be made or not whatever they extend, and go to the end. -/
theorem extend_eq (v : Validator σ) (xs : List (Extension σ)) :
    v.extend xs = (root.extend xs).map (v ++ ·) := by
  induction xs generalizing v with
  | nil => simp [extend, root, pure, Except.pure, Except.map]
  | cons x xs ih =>
    rw [extend_cons, extend_cons, extendOnce_eq v x]
    cases root.extendOnce x with
    | error f => rfl
    | ok u =>
      have hv : (v ++ u : Validator σ).extend xs = (root.extend xs).map (v ++ u ++ ·) := ih (v ++ u)
      have hu := ih u
      show (v ++ u : Validator σ).extend xs = (u.extend xs).map (v ++ ·)
      rw [hv, hu]
      cases root.extend xs with
      | error f => rfl
      | ok c => simp [Except.map]

theorem extend_ok {a b : Validator σ} {ys : List (Extension σ)} (h : a.extend ys = .ok b) :
    ∃ c, root.extend ys = .ok c ∧ b = a ++ c := by
  rw [extend_eq] at h
  obtain ⟨c, hc, hb⟩ := map_eq_ok_iff.1 h
  exact ⟨c, hc, hb.symm⟩

theorem validate_append (a c : Validator σ) (v : Value) :
    Validator.validate (a ++ c) v = a.validate v >>= fun w => Validator.validate c w :=
  runSteps_append a c v

end Validator

/-- A validator that is defined on a bench from another one changes no third one, nor the one it
extends. -/
theorem Workbench.define_apart {w : Workbench σ} (hw : w.Sound) {base : String}
    {a b : Validator σ} {label : String} (ha : w.Stands base a label) {ys : List (Extension σ)}
    (hb : a.extend ys = .ok b) (name : String) (s : Scene σ) :
    ∃ answer w', Runs w s [(.define name base (Validator.root.extend ys), .ok answer)] w' s ∧
      (∃ l, w'.Stands name b l) ∧
      ∀ other v l, other ≠ name → w.Stands other v l → w'.Stands other v l := by
  obtain ⟨c, hc, rfl⟩ := Validator.extend_ok hb
  obtain ⟨w', hrun, hnamed⟩ := ha.define name c s
  rw [hc]
  have hruns : Runs w s [(.define name base (.ok c), .ok (.text (c.labelAfter label)))] w' s :=
    .next hrun (.done w' s)
  refine ⟨_, w', hruns, ⟨_, hnamed⟩, ?_⟩
  intro other v l hother hv
  apply hruns.stands hw hv
  simp [BenchCommand.defines?, hother.symm]

/-- Chains are compositions. Further steps can be made on a validator when they can be made on
their own, and fail to be made in the same way. If the validator fails on a value, so does the
extended one, in the same way and leaving all as the first one leaves it, so that no function of the
further steps is called. Otherwise the extended validator goes on as the further steps alone do on
the result. And whatever commands made a bench, extending a validator on it changes neither that one
nor another one, and so none that extends it too. -/
theorem chains_compose (a : Validator σ) (ys : List (Extension σ)) :
    (∀ f, a.extend ys = .error f ↔ Validator.root.extend ys = .error f) ∧
    (∀ c, Validator.root.extend ys = .ok c → ∃ b, a.extend ys = .ok b ∧ ∀ v s,
      (∀ f t, (a.validate v).runIn s = (.error f, t) → (b.validate v).runIn s = (.error f, t)) ∧
      ∀ w t, (a.validate v).runIn s = (.ok w, t) →
        (b.validate v).runIn s = (c.validate w).runIn t) ∧
    ∀ first second s₀ before (w : Workbench σ) s base label b name,
      Workbench.Runs (.initial first second) s₀ before w s → w.Stands base a label →
      a.extend ys = .ok b →
      ∃ answer w',
        Workbench.Runs w s [(.define name base (Validator.root.extend ys), .ok answer)] w' s ∧
        (∃ l, w'.Stands name b l) ∧
        ∀ other v l, other ≠ name → w.Stands other v l → w'.Stands other v l := by
  refine ⟨?_, ?_, ?_⟩
  · intro f
    rw [Validator.extend_eq]
    cases Validator.root.extend ys <;> simp [Except.map]
  · intro c hc
    have hb : a.extend ys = .ok (a ++ c) := by
      rw [Validator.extend_eq, hc]
      rfl
    refine ⟨a ++ c, hb, ?_⟩
    intro v s
    rw [Validator.validate_append]
    exact ⟨fun f t h => Call.runIn_bind_error h _, fun w t h => Call.runIn_bind_ok h _⟩
  · intro first second s₀ before w s base label b name hbefore ha hb
    obtain ⟨hsound, -⟩ := hbefore.sound (Workbench.sound_initial first second)
    exact Workbench.define_apart hsound ha hb name s

/-- A function that counts how often it is called. -/
def counting : CustomStep Nat where
  name? := some "counting"
  apply v := do
    modify fun s => { s with host := s.host + 1 }
    return v

/-- The function is not called on a value that is no text, and once on a text. Where texts with the
function are defined, texts without it stay. -/
theorem counting_called_on_texts : ∃ b,
    Validator.root.string.extend [.compose counting none] = .ok b ∧
    (b.validate (.int 1)).runIn (.initial 0) =
      (.error (mismatchOf (.int 1) .string), .initial 0) ∧
    (b.validate (.str "Ada")).runIn (.initial 0) = (.ok (.str "Ada"), .initial 1) ∧
    ∃ steps after,
      Workbench.Runs (.initial "Types" "fresh") (.initial 0) steps after (.initial 0) ∧
      after.Stands "text" Validator.root.string "string" ∧ ∃ l, after.Stands "counted" b l := by
  obtain ⟨-, hextend, hdefine⟩ := chains_compose Validator.root.string [.compose counting none]
  obtain ⟨b, hb, hruns⟩ := hextend _ rfl
  obtain ⟨hfails, -⟩ := hruns (.int 1) (.initial 0)
  obtain ⟨-, hpasses⟩ := hruns (.str "Ada") (.initial 0)
  obtain ⟨w, hbefore, htext⟩ : ∃ w : Workbench Nat, Workbench.Runs (.initial "Types" "fresh")
      (.initial 0) [(.define "text" "Types" (.ok [.typeOf .string]), .ok (.text "string"))] w
      (.initial 0) ∧ w.Stands "text" Validator.root.string "string" :=
    ⟨_, .next rfl (.done _ _), _, rfl, rfl, rfl⟩
  obtain ⟨answer, after, hdefined, hcounted, hkept⟩ :=
    hdefine _ _ _ _ _ _ "text" "string" b "counted" hbefore htext hb
  exact ⟨b, hb, hfails _ _ rfl, hpasses _ _ rfl, _, after, hbefore.append hdefined,
    hkept "text" _ _ (by decide) htext, hcounted⟩

end CheckedActions
