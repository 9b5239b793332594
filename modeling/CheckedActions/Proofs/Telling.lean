import CheckedActions.Proofs.Numerals
import CheckedActions.Proofs.Runs
import CheckedActions.Validator.Basic

/-!
Which failures can be told. A rejection has its text from the start. Any other failure is put into
words when it is asked for them, and that fails if a whole number in it is too long to be written.
-/

namespace CheckedActions

/-- A whole number with more digits than are written. -/
theorem not_isShort_pow10 {n : Nat} (h : digitLimit ≤ n) : ¬ isShort (pow10 n) := by
  have hsize := Binary64.size_mul_pow10 (n := 1) (by decide) n
  rw [Nat.one_mul] at hsize
  have hone : (Nat.toDigits 10 1).length = 1 := rfl
  rw [isShort, Int.natAbs_natCast, hsize, hone, decide_eq_true_eq]
  omega

namespace Failure

/-- A failure that is no rejection, and of which it cannot be told what it is. -/
def Untold (f : Failure) : Prop := f.errors? = none ∧ ¬ f.isTellable

theorem not_untold_of_isRejection {f : Failure} (h : f.isRejection) : ¬ f.Untold := by
  rintro ⟨hnone, -⟩
  rw [isRejection, hnone] at h
  cases h

theorem not_untold_of_isTellable {f : Failure} (h : f.isTellable) : ¬ f.Untold := fun hu => hu.2 h

theorem isTellable_of_not_untold {f : Failure} (hr : ¬ f.isRejection) (h : ¬ f.Untold) :
    f.isTellable := by
  cases ht : f.isTellable with
  | true => rfl
  | false => exact absurd ⟨by simpa [isRejection] using hr, by simp [ht]⟩ h

theorem message_of_tellable {f : Failure} (h : f.isTellable) : f.message = .ok f.wording :=
  if_pos h

theorem message_of_not_tellable {f : Failure} (h : ¬ f.isTellable) :
    f.message = .error .tooLongToWrite := if_neg h

theorem entry_of_rejection {f : Failure} {errors : Value} (h : f.errors? = some errors) :
    f.entry = .ok errors := by
  rw [entry, h]

theorem entry_of_other {f : Failure} (h : f.errors? = none) :
    f.entry = f.message.map .str := by
  rw [entry, h]

/-- Nothing is kept from a shape but a failure that cannot be told, and of that the shape learns as
much. -/
theorem entry_eq_error_iff {f e : Failure} :
    f.entry = .error e ↔ f.Untold ∧ e = .tooLongToWrite := by
  unfold Untold
  cases h : f.errors? with
  | some errors => simp [entry_of_rejection h]
  | none =>
    rw [entry_of_other h, map_eq_error_iff]
    by_cases ht : f.isTellable
    · simp [message_of_tellable ht, ht]
    · simp [message_of_not_tellable ht, ht, eq_comm]

/-- A value error about a number of too many digits. -/
def longNumber : Failure := .host "ValueError" [.int (pow10 digitLimit)]

theorem untold_longNumber : longNumber.Untold := by
  have htell : longNumber.isTellable = (isShort (pow10 digitLimit) && true) := rfl
  refine ⟨rfl, fun h => not_isShort_pow10 Nat.le.refl ?_⟩
  rwa [htell, Bool.and_true] at h

end Failure

/-- What an outcome is that a shape cannot report. -/
theorem reportOf_eq_error_iff {r : Except Failure Value} {e : Failure} :
    reportOf r = .error e ↔ ∃ f, r = .error f ∧ f.Untold ∧ e = .tooLongToWrite := by
  cases r with
  | ok v => simp [reportOf]
  | error f => simp [reportOf, map_eq_error_iff, Failure.entry_eq_error_iff]

theorem reportOf_eq_ok_iff {r : Except Failure Value} {report : FieldReport} :
    reportOf r = .ok report ↔
      (∃ v, r = .ok v ∧ report = .ok v) ∨
      ∃ f entry, r = .error f ∧ f.entry = .ok entry ∧ report = .error entry := by
  cases r with
  | ok v => simp [reportOf, eq_comm]
  | error f =>
    rw [reportOf, map_eq_ok_iff]
    simp [eq_comm]

theorem reportOf_eq_ok_ok_iff {r : Except Failure Value} {v : Value} :
    reportOf r = .ok (.ok v) ↔ r = .ok v := by
  rw [reportOf_eq_ok_iff]
  simp

end CheckedActions
