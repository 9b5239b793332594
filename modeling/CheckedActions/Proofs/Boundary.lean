import CheckedActions.Proofs.Endings
import CheckedActions.Proofs.KeyOrder
import CheckedActions.Proofs.PlainData

/-!
When the operations on registered actions answer. A run of a known action answers whatever its
action and its observers do, with two exceptions. The action returns a value without a plain form:
that form is made when failures are not caught any more. Or the action fails, and it cannot be told
what with. Listing, and answering to an unknown name, take names that have an order.
-/

namespace CheckedActions

/-- The names can be sorted. -/
def Registry.NamesSort {σ : Type} (r : Registry σ) : Prop :=
  (Value.sortKeys r.actions.keys).isOk

namespace Service

variable {σ : Type}

theorem isOk_sorted (r : Registry σ) : r.sorted.isOk ↔ r.NamesSort := by
  rw [Registry.sorted, Keyed.sort, isOk_map, Registry.NamesSort]

theorem isOk_list (r : Registry σ) : (list r).isOk ↔ r.NamesSort := by
  rw [list, isOk_map, isOk_sorted]

theorem isOk_unknownAction (r : Registry σ) (op name : String) :
    (unknownAction r op name).isOk ↔ r.NamesSort := by
  rw [unknownAction, isOk_map, Registry.names, isOk_map, isOk_sorted]

theorem isOk_describe (r : Registry σ) (name : String) :
    (describe r name).isOk ↔ (r.get? (.str name)).isSome ∨ r.NamesSort := by
  unfold describe
  cases r.get? (.str name) with
  | none => simpa using isOk_unknownAction r "describe_action" name
  | some a => simp

/-- Only the value of a run can keep the result of its ending from being made. -/
theorem isOk_result (op name : String) (warnings : List String) {outcome : Except Failure Value}
    {ending : Ending} (he : Ending.ofOutcome outcome = .ok ending) (left : Value) :
    ((ending.withErrors left).result op name warnings).isOk ↔
      ∀ v, outcome = .ok v → ¬ v.Unplain := by
  cases outcome with
  | ok v =>
    cases he
    have hmade : ((Ending.done v).result op name warnings).isOk = v.toPlain.isOk :=
      isOk_map v.toPlain _
    refine (iff_of_eq (congrArg (· = true) hmade)).trans ((Value.isOk_toPlain v).trans ?_)
    simp
  | error f =>
    rw [Ending.ofOutcome] at he
    cases h : f.errors? with
    | some errors =>
      rw [h] at he
      cases he
      simp [Ending.withErrors, Ending.result]
    | none =>
      rw [h] at he
      obtain ⟨text, -, rfl⟩ := map_eq_ok_iff.1 he
      simp [Ending.withErrors, Ending.result]

theorem isOk_run_unknown {r : Registry σ} {name : String} (h : r.get? (.str name) = none)
    (jacks props : Value) (s : Scene σ) :
    ((run r name jacks props).runIn s).1.isOk ↔ r.NamesSort := by
  rw [runIn_run_unknown h]
  exact isOk_unknownAction r "run_action" name

/-- A run of a known action answers if its call can be told about, and the value of the call has a
plain form. -/
theorem isOk_run_known {r : Registry σ} {name : String} {a : Action σ}
    (h : r.get? (.str name) = some a) {jacks props : Value} {s t : Scene σ}
    {outcome : Except Failure Value}
    (hcall : (a.call jacks props).runIn (s.binding "action" (.str name)) = (outcome, t)) :
    ((run r name jacks props).runIn s).1.isOk ↔
      (∀ v, outcome = .ok v → ¬ v.Unplain) ∧ ∀ f, outcome = .error f → ¬ f.Untold := by
  cases he : Ending.ofOutcome outcome with
  | ok ending =>
    rw [runIn_run_known h hcall he]
    refine (isOk_result "run_action" name _ he _).trans (and_iff_left ?_).symm
    rintro f rfl hf
    rw [Ending.ofOutcome_eq_error_iff.2 ⟨f, rfl, hf, rfl⟩] at he
    cases he
  | error g =>
    obtain ⟨f, rfl, hf, rfl⟩ := Ending.ofOutcome_eq_error_iff.1 he
    rw [runIn_run_untold h hcall hf]
    exact iff_of_false nofun fun hn => hn.2 f rfl hf

/-- Which operations answer. Listing does when the names can be sorted, and describing when the name
is known or the names can be sorted. A run of an unknown name answers when the names can be sorted,
and a run of an action does unless the action returns a value without a plain form or fails with
what cannot be told. Names can be sorted when any two of them have an order, as texts do, and names
that are not all tuples can be sorted only then. -/
theorem answers_iff (r : Registry σ) (name : String) (jacks props : Value) (s : Scene σ) :
    ((list r).isOk ↔ r.NamesSort) ∧
    ((describe r name).isOk ↔ (r.get? (.str name)).isSome ∨ r.NamesSort) ∧
    (((run r name jacks props).runIn s).1.isOk ↔
      match r.get? (.str name) with
      | none => r.NamesSort
      | some a =>
        let outcome := ((a.call jacks props).runIn (s.binding "action" (.str name))).1
        (∀ v, outcome = .ok v → ¬ v.Unplain) ∧ ∀ f, outcome = .error f → ¬ f.Untold) ∧
    ((∀ k ∈ r.actions.keys, k.isString) → r.NamesSort) ∧
    (r.actions.keys.Pairwise Value.Comparable → r.NamesSort) ∧
    ((∃ k ∈ r.actions.keys, ¬ k.isTuple) → r.NamesSort →
      r.actions.keys.Pairwise Value.Comparable) := by
  refine ⟨isOk_list r, isOk_describe r name, ?_, Value.isOk_sortKeys_texts, Value.isOk_sortKeys,
    fun ht => (Value.isOk_sortKeys_iff ht).1⟩
  cases h : r.get? (.str name) with
  | none => exact isOk_run_unknown h jacks props s
  | some a => exact isOk_run_known h rfl

/-- An hour before the end of the calendar, in a place where universal time is past that end. -/
def lastEvening : DateTime := ⟨⟨9999, 12, 31⟩, 23, 30, 0, 0, some (-3600)⟩

/-- An action that returns that moment. -/
def late : Action Unit :=
  ⟨0, ⟨"Late", "Answers with a moment at the end of the calendar", [], [],
    fun _ _ => pure (.datetime lastEvening), none, none⟩⟩

def lateRegistry : Registry Unit := ⟨.empty, [(.str "Late", late)], []⟩

/-- A run of that action does not answer. -/
theorem late_run_fails :
    ((run lateRegistry "Late" .null .null).runIn (.initial ())).1 = .error .outsideCalendar := by
  rfl

end Service
end CheckedActions
