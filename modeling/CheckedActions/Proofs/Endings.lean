import CheckedActions.Proofs.Telling
import CheckedActions.Service.Actions

/-!
How a run of an action goes. The action is called with its name bound in the log. If it can be told
how the call ended, observers are told of that, and the result is made of the ending, with the
errors as the observers leave them. The observers come in only there: beside that they can add a
warning to the result, and they have effects of their own.
-/

namespace CheckedActions

variable {σ : Type}

namespace Registry

end Registry

/-- The code of a result's error, if there is one. -/
def ServiceResult.code? (r : ServiceResult) : Option String := r.error?.map (·.code)

/-! ### Observers -/

/-- The observer leaves the errors alone, whatever it is told. -/
def Observer.Discreet (observe : Observer σ) : Prop :=
  ∀ n s, ((observe n).runIn s).2.host.cell = s.host.cell

theorem Observer.discreet_besideCell (c : Notice → Call σ Unit) :
    Observer.Discreet fun n => Call.besideCell (c n) := fun _ _ => rfl

namespace PluginRoster

/-- All observers of the roster leave the errors alone. -/
def Discreet (r : PluginRoster σ) : Prop := ∀ observe ∈ r.observers, Observer.Discreet observe

/-- What no observer changes is not changed by telling all of them. -/
theorem cell_notify {r : PluginRoster σ} (h : r.Discreet) (n : Notice) (s : Scene (Celled σ)) :
    ((r.notify n).runIn s).2.host.cell = s.host.cell := by
  unfold notify
  unfold Discreet at h
  generalize r.observers = observers at h
  induction observers generalizing s with
  | nil => rfl
  | cons observe rest ih =>
    obtain ⟨hone, hrest⟩ := List.forall_mem_cons.1 h
    have hfirst := hone { n with errors := s.host.cell } s
    have htold : (do observe { n with errors := ← Call.readCell } : Call (Celled σ) Unit).runIn s =
        (observe { n with errors := s.host.cell }).runIn s := rfl
    rw [List.forM_eq_forM, List.forM_cons, Call.runIn_bind, htold]
    rcases hrun : (observe { n with errors := s.host.cell }).runIn s with ⟨_ | _, t⟩
    · rwa [hrun] at hfirst
    · rw [hrun] at hfirst
      exact (ih t hrest).trans hfirst

end PluginRoster

namespace Service

/-- The one warning of a run whose observers fail. -/
def dispatchWarning : String := "Event dispatch failed for post_perform"

/-- Telling observers news, whose errors are put into a cell for them. -/
def telling (plugins : PluginRoster σ) (n : Notice) (t : Scene σ) :
    Except Failure Unit × Scene (Celled σ) := (plugins.notify n).runIn (t.celled n.errors)

/-- What the errors of news are when the observers have been told. -/
def errorsLeft (plugins : PluginRoster σ) (n : Notice) (t : Scene σ) : Value :=
  toldErrors n.errors (telling plugins n t).2.host.cell

/-- The warnings of a run after its observers have answered or failed. -/
def toldWarnings : Except Failure Unit → List String
  | .ok _ => []
  | .error _ => [dispatchWarning]

/-- The scene after the observers. That they failed is logged. -/
def toldScene : Except Failure Unit × Scene (Celled σ) → Scene σ
  | (.ok _, u) => u.uncelled
  | (.error _, u) => u.uncelled.logged .debug eventLogger dispatchWarning

/-- Discreet observers leave the errors as they were told. -/
theorem errorsLeft_of_discreet {plugins : PluginRoster σ} (h : plugins.Discreet) (n : Notice)
    (t : Scene σ) : errorsLeft plugins n t = n.errors := by
  have hcell : (telling plugins n t).2.host.cell = n.errors :=
    PluginRoster.cell_notify h n (t.celled n.errors)
  rw [errorsLeft, toldErrors, hcell, ite_self]

theorem runIn_dispatch (r : Registry σ) (n : Notice) (s : Scene σ) :
    (dispatch r n).runIn s =
      (.ok (errorsLeft r.plugins n s, toldWarnings (telling r.plugins n s).1),
        toldScene (telling r.plugins n s)) := by
  have hcell : (Call.withCell n.errors (r.plugins.notify n)).runIn s =
      (.ok ((telling r.plugins n s).1, (telling r.plugins n s).2.host.cell),
        (telling r.plugins n s).2.uncelled) := rfl
  unfold dispatch errorsLeft
  rw [Call.runIn_bind_ok hcell]
  rcases telling r.plugins n s with ⟨_ | _, t⟩
  · rfl
  · rfl

/-! ### Endings -/

/-- A call leaves no ending exactly if it fails with what cannot be told. -/
theorem Ending.ofOutcome_eq_error_iff {outcome : Except Failure Value} {g : Failure} :
    Ending.ofOutcome outcome = .error g ↔
      ∃ f, outcome = .error f ∧ f.Untold ∧ g = .tooLongToWrite := by
  cases outcome with
  | ok v => simp [ofOutcome]
  | error f =>
    rw [ofOutcome]
    cases h : f.errors? with
    | some errors => simp [Failure.Untold, h]
    | none =>
      simp only [map_eq_error_iff]
      by_cases ht : f.isTellable
      · simp [Failure.Untold, ht, Failure.message_of_tellable ht]
      · have hu : f.Untold := ⟨h, ht⟩
        simp [hu, Failure.message_of_not_tellable ht, eq_comm]

theorem Ending.code?_of_result {ending : Ending} {op name : String} {warnings : List String}
    {result : ServiceResult} (h : ending.result op name warnings = .ok result) :
    result.code? = match ending with
      | done _ => none
      | rejected .. => some "VALIDATION_FAILED"
      | failed _ => some "PERFORM_FAILED" := by
  cases ending with
  | done v =>
    obtain ⟨plain, -, hresult⟩ := bind_eq_ok_iff.1 h
    cases hresult
    rfl
  | rejected errors summary =>
    cases h
    rfl
  | failed text =>
    cases h
    rfl

/-- The scene in which it is told how a call ended. That the action failed is logged. -/
def raisedScene (name : String) (t : Scene σ) : Except Failure Value → Scene σ
  | .ok _ => t
  | .error f =>
    if f.isRejection then t else t.logged .debug logger ("Action " ++ name ++ " raised")

theorem runIn_logRaised (name : String) (outcome : Except Failure Value) (t : Scene σ) :
    (logRaised name outcome).runIn t = (.ok (), raisedScene name t outcome) := by
  cases outcome with
  | ok v => rfl
  | error f =>
    cases h : f.isRejection <;> simp [logRaised, raisedScene, h]

/-- How the run of a call with the given outcome ends: as the call does, with its errors as the
observers leave them. -/
def endingOf (plugins : PluginRoster σ) (name : String) (outcome : Except Failure Value)
    (t : Scene σ) : Except Failure Ending :=
  (Ending.ofOutcome outcome).map fun ending =>
    ending.withErrors (errorsLeft plugins (ending.notice name) (raisedScene name t outcome))

theorem runIn_perform {r : Registry σ} {a : Action σ} {name : String} {jacks props : Value}
    {s t : Scene σ} {outcome : Except Failure Value} {ending : Ending}
    (hcall : (a.call jacks props).runIn s = (outcome, t))
    (he : Ending.ofOutcome outcome = .ok ending) :
    (perform r a name jacks props).runIn s =
      let told := telling r.plugins (ending.notice name) (raisedScene name t outcome)
      (.ok (ending.withErrors
          (errorsLeft r.plugins (ending.notice name) (raisedScene name t outcome)),
          toldWarnings told.1), toldScene told) := by
  have hattempt : (Call.attempt (a.call jacks props)).runIn s = (.ok outcome, t) := by
    rw [Call.runIn_attempt, hcall]
  have hending : (Call.ofExcept (Ending.ofOutcome outcome)).runIn (raisedScene name t outcome) =
      (.ok ending, raisedScene name t outcome) := by
    rw [Call.runIn_ofExcept, he]
  unfold perform
  rw [Call.runIn_bind_ok hattempt, Call.runIn_bind_ok (runIn_logRaised name outcome t),
    Call.runIn_bind_ok hending, Call.runIn_bind_ok (runIn_dispatch r _ _)]
  rfl

/-- A call that cannot be told about is not told about. -/
theorem runIn_perform_untold (r : Registry σ) {a : Action σ} {name : String}
    {jacks props : Value} {s t : Scene σ} {f : Failure}
    (hcall : (a.call jacks props).runIn s = (.error f, t)) (hf : f.Untold) :
    (perform r a name jacks props).runIn s =
      (.error .tooLongToWrite, raisedScene name t (.error f)) := by
  have hattempt : (Call.attempt (a.call jacks props)).runIn s = (.ok (.error f), t) := by
    rw [Call.runIn_attempt, hcall]
  have hending : (Call.ofExcept (Ending.ofOutcome (.error f))).runIn
      (raisedScene name t (.error f)) =
        (.error .tooLongToWrite, raisedScene name t (.error f)) := by
    rw [Call.runIn_ofExcept, Ending.ofOutcome_eq_error_iff.2 ⟨f, rfl, hf, rfl⟩]
  unfold perform
  rw [Call.runIn_bind_ok hattempt, Call.runIn_bind_ok (runIn_logRaised name _ t),
    Call.runIn_bind_error hending]

/-! ### Runs -/

theorem runIn_run_unknown {r : Registry σ} {name : String} (h : r.get? (.str name) = none)
    (jacks props : Value) (s : Scene σ) :
    (run r name jacks props).runIn s = (unknownAction r "run_action" name, s) := by
  unfold run
  rw [h]
  rfl

/-- A run of a known action calls it, tells the observers of the ending, and makes a result of the
ending. -/
theorem runIn_run_known {r : Registry σ} {name : String} {a : Action σ}
    (h : r.get? (.str name) = some a) {jacks props : Value} {s t : Scene σ}
    {outcome : Except Failure Value} {ending : Ending}
    (hcall : (a.call jacks props).runIn (s.binding "action" (.str name)) = (outcome, t))
    (he : Ending.ofOutcome outcome = .ok ending) :
    (run r name jacks props).runIn s =
      let told := telling r.plugins (ending.notice name) (raisedScene name t outcome)
      ((ending.withErrors (errorsLeft r.plugins (ending.notice name)
          (raisedScene name t outcome))).result "run_action" name (toldWarnings told.1),
        (toldScene told).restoring "action" s) := by
  have hbound := Call.runIn_withKey "action" (.str name) (perform r a name jacks props) s
  rw [runIn_perform hcall he] at hbound
  unfold run
  rw [h]
  exact Call.runIn_bind_ok hbound _

/-- A run of an action that fails with what cannot be told fails too, and tells nobody. -/
theorem runIn_run_untold {r : Registry σ} {name : String} {a : Action σ}
    (h : r.get? (.str name) = some a) {jacks props : Value} {s t : Scene σ} {f : Failure}
    (hcall : (a.call jacks props).runIn (s.binding "action" (.str name)) = (.error f, t))
    (hf : f.Untold) :
    (run r name jacks props).runIn s =
      (.error .tooLongToWrite, (raisedScene name t (.error f)).restoring "action" s) := by
  have hbound := Call.runIn_withKey "action" (.str name) (perform r a name jacks props) s
  rw [runIn_perform_untold r hcall hf] at hbound
  unfold run
  rw [h]
  exact Call.runIn_bind_error hbound _

/-- An answer of a run is made of how the run ended. -/
theorem ending_of_run {r : Registry σ} {name : String} {a : Action σ}
    (h : r.get? (.str name) = some a) {jacks props : Value} {s t : Scene σ}
    {outcome : Except Failure Value} {result : ServiceResult}
    (hcall : (a.call jacks props).runIn (s.binding "action" (.str name)) = (outcome, t))
    (hresult : ((run r name jacks props).runIn s).1 = .ok result) :
    ∃ ending warnings, endingOf r.plugins name outcome t = .ok ending ∧
      ending.result "run_action" name warnings = .ok result := by
  cases he : Ending.ofOutcome outcome with
  | error g =>
    obtain ⟨f, rfl, hf, -⟩ := Ending.ofOutcome_eq_error_iff.1 he
    rw [runIn_run_untold h hcall hf] at hresult
    nomatch hresult
  | ok ending =>
    rw [runIn_run_known h hcall he] at hresult
    refine ⟨_, _, ?_, hresult⟩
    rw [endingOf, he]
    rfl

end Service
end CheckedActions
