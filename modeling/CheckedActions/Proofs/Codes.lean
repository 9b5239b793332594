import CheckedActions.Proofs.Endings
import CheckedActions.Proofs.Performing

/-!
What the code of a failed run tells. Rejected input gives one code, a failing handler another, with
the kind and the text of its failure. But a handler whose failure is a rejection of its own is taken
for rejected input, and one that fails with what cannot be told keeps the run from answering.
-/

namespace CheckedActions.Service

variable {σ : Type}

/-- The answer is a result whose error has the given code. -/
def HasCode (answer : Except Failure ServiceResult) (code : String) : Prop :=
  ∃ result, answer = .ok result ∧ result.code? = some code

/-- The result of a run whose action failed. A rejection has the errors that the observers leave. -/
def failedRun (name : String) (warnings : List String) (left : Value) (f : Failure) :
    ServiceResult :=
  match f.errors? with
  | some _ =>
    .failure "run_action" "VALIDATION_FAILED" f.wording
      [("action", .str name), ("errors", left)] warnings
  | none =>
    .failure "run_action" "PERFORM_FAILED" (f.kind ++ ": " ++ f.wording)
      [("action", .str name)] warnings

theorem code?_failedRun (name : String) (warnings : List String) (left : Value) (f : Failure) :
    (failedRun name warnings left f).code? =
      some (if f.isRejection then "VALIDATION_FAILED" else "PERFORM_FAILED") := by
  unfold failedRun Failure.isRejection
  cases f.errors? with
  | none => rfl
  | some errors => rfl

theorem hasCode_failedRun {name code : String} {warnings : List String} {left : Value}
    {f : Failure} :
    HasCode (.ok (failedRun name warnings left f)) code ↔
      (if f.isRejection then "VALIDATION_FAILED" else "PERFORM_FAILED") = code := by
  simp [HasCode, code?_failedRun]

theorem failedRun_of_not_isRejection {f : Failure} (h : ¬ f.isRejection) (name : String)
    (warnings : List String) (left : Value) :
    failedRun name warnings left f =
      .failure "run_action" "PERFORM_FAILED" (f.kind ++ ": " ++ f.wording)
        [("action", .str name)] warnings := by
  have hnone : f.errors? = none := by simpa [Failure.isRejection] using h
  rw [failedRun, hnone]

theorem ofOutcome_rejection {f : Failure} {errors : Value} (h : f.errors? = some errors) :
    Ending.ofOutcome (.error f) = .ok (.rejected errors f.wording) := by
  rw [Ending.ofOutcome, h]

theorem result_of_error {f : Failure} {ending : Ending}
    (he : Ending.ofOutcome (.error f) = .ok ending) (name : String) (warnings : List String)
    (left : Value) :
    (ending.withErrors left).result "run_action" name warnings =
      .ok (failedRun name warnings left f) := by
  unfold failedRun
  rw [Ending.ofOutcome] at he
  cases h : f.errors? with
  | some errors =>
    rw [h] at he
    cases he
    rfl
  | none =>
    rw [h] at he
    obtain ⟨text, htext, rfl⟩ := map_eq_ok_iff.1 he
    by_cases ht : f.isTellable
    · rw [Failure.message_of_tellable ht] at htext
      cases htext
      rfl
    · rw [Failure.message_of_not_tellable ht] at htext
      cases htext

theorem exists_ending {f : Failure} (h : ¬ f.Untold) :
    ∃ ending, Ending.ofOutcome (.error f) = .ok ending := by
  cases he : Ending.ofOutcome (.error f) with
  | ok ending => exact ⟨ending, rfl⟩
  | error g =>
    obtain ⟨_, ⟨⟩, hf, -⟩ := Ending.ofOutcome_eq_error_iff.1 he
    exact absurd hf h

/-- A run whose action fails answers if it can be told what with. The errors of a rejection are what
the observers leave of them, which discreet ones do as they are. -/
theorem run_of_call_error {r : Registry σ} {name : String} {a : Action σ}
    (h : r.get? (.str name) = some a) {jacks props : Value} {s t : Scene σ} {f : Failure}
    (hcall : (a.call jacks props).runIn (s.binding "action" (.str name)) = (.error f, t))
    (hf : ¬ f.Untold) :
    ∃ warnings left, ((run r name jacks props).runIn s).1 = .ok (failedRun name warnings left f) ∧
      ∀ errors, f.errors? = some errors → r.plugins.Discreet → left = errors := by
  obtain ⟨ending, he⟩ := exists_ending hf
  refine ⟨_, _, (congrArg Prod.fst (runIn_run_known h hcall he)).trans
    (result_of_error he name _ _), ?_⟩
  intro errors herrors hdiscreet
  rw [ofOutcome_rejection herrors] at he
  cases he
  exact errorsLeft_of_discreet hdiscreet _ _

/-- A run whose action returns has no error, if it answers at all. -/
theorem not_hasCode_of_call_ok {r : Registry σ} {name : String} {a : Action σ}
    (h : r.get? (.str name) = some a) {jacks props v : Value} {s t : Scene σ}
    (hcall : (a.call jacks props).runIn (s.binding "action" (.str name)) = (.ok v, t))
    (code : String) : ¬ HasCode ((run r name jacks props).runIn s).1 code := by
  rw [runIn_run_known h hcall rfl]
  rintro ⟨result, hresult, hcode⟩
  have hending : (Ending.done v).result "run_action" name _ = .ok result := hresult
  rw [Ending.code?_of_result hending] at hcode
  cases hcode

/-- One of the two sides of a call is rejected. -/
def SideRejected (rj rp : Except Failure Value) : Prop := ∃ f, rj = .error f ∨ rp = .error f

/-- Both sides of a call are accepted, and performing on them in the given scene fails. -/
def PerformFails (a : Action σ) (t : Scene σ) (rj rp : Except Failure Value) (f : Failure) : Prop :=
  ∃ j p, rj = .ok j ∧ rp = .ok p ∧ ((a.descriptor.perform j p).runIn t).1 = .error f

theorem rejected_or_accepted (rj rp : Except Failure Value) :
    SideRejected rj rp ∨ ∃ j p, rj = .ok j ∧ rp = .ok p := by
  cases rj with
  | error f => exact .inl ⟨f, .inl rfl⟩
  | ok j =>
    cases rp with
    | error f => exact .inl ⟨f, .inr rfl⟩
    | ok p => exact .inr ⟨j, p, rfl, rfl⟩

section Answers

variable {r : Registry σ} {name : String} {a : Action σ} {jacks props : Value} {s t : Scene σ}
  {rj rp : Except Failure Value}

/-- A run of refused input answers with its errors, as the observers leave them. -/
theorem run_of_refuses (h : r.get? (.str name) = some a) {errors : Value}
    (hr : a.Refuses jacks props (s.binding "action" (.str name)) (.rejected errors) t) :
    ∃ left warnings, (r.plugins.Discreet → left = errors) ∧
      ((run r name jacks props).runIn s).1 =
        .ok (failedRun name warnings left (.rejected errors)) := by
  obtain ⟨warnings, left, hanswer, hleft⟩ :=
    run_of_call_error h (hr a.descriptor.perform) (Failure.not_untold_of_isRejection rfl)
  exact ⟨left, warnings, hleft errors rfl, hanswer⟩

variable (h : r.get? (.str name) = some a)
  (hperforms : ∀ j p, rj = .ok j → rp = .ok p →
    a.Performs jacks props (s.binding "action" (.str name)) j p t)

include h hperforms

/-- A run whose handler fails answers with that failure, if it can be told. -/
theorem run_of_performFails {f : Failure} (hf : PerformFails a t rj rp f) (htold : ¬ f.Untold) :
    ∃ warnings left,
      ((run r name jacks props).runIn s).1 = .ok (failedRun name warnings left f) := by
  obtain ⟨j, p, hj, hp, hf⟩ := hf
  obtain ⟨warnings, left, hanswer, -⟩ :=
    run_of_call_error h ((hperforms j p hj hp).runIn_call hf) htold
  exact ⟨warnings, left, hanswer⟩

theorem run_of_performFails_untold {f : Failure} (hf : PerformFails a t rj rp f) (hu : f.Untold) :
    ((run r name jacks props).runIn s).1 = .error .tooLongToWrite := by
  obtain ⟨j, p, hj, hp, hf⟩ := hf
  rw [runIn_run_untold h ((hperforms j p hj hp).runIn_call hf) hu]

/-- The code of a run's answer, from what its two sides come to. -/
theorem hasCode_iff
    (hrefuses : SideRejected rj rp →
      ∃ errors u, a.Refuses jacks props (s.binding "action" (.str name)) (.rejected errors) u)
    (code : String) :
    HasCode ((run r name jacks props).runIn s).1 code ↔
      SideRejected rj rp ∧ code = "VALIDATION_FAILED" ∨
      ∃ f, PerformFails a t rj rp f ∧ ¬ f.Untold ∧
        code = if f.isRejection then "VALIDATION_FAILED" else "PERFORM_FAILED" := by
  constructor
  · intro hcode
    rcases rejected_or_accepted rj rp with hr | ⟨j, p, hj, hp⟩
    · obtain ⟨errors, u, hu⟩ := hrefuses hr
      obtain ⟨left, warnings, -, hanswer⟩ := run_of_refuses h hu
      rw [hanswer, hasCode_failedRun] at hcode
      exact .inl ⟨hr, hcode.symm⟩
    · cases ho : ((a.descriptor.perform j p).runIn t).1 with
      | ok v =>
        exact absurd hcode (not_hasCode_of_call_ok h ((hperforms j p hj hp).runIn_call ho) code)
      | error f =>
        have hf : PerformFails a t rj rp f := ⟨j, p, hj, hp, ho⟩
        have htold : ¬ f.Untold := by
          intro hu
          obtain ⟨result, hresult, -⟩ := hcode
          rw [run_of_performFails_untold h hperforms hf hu] at hresult
          cases hresult
        obtain ⟨warnings, left, hanswer⟩ := run_of_performFails h hperforms hf htold
        rw [hanswer, hasCode_failedRun] at hcode
        exact .inr ⟨f, hf, htold, hcode.symm⟩
  · rintro (⟨hr, rfl⟩ | ⟨f, hf, htold, rfl⟩)
    · obtain ⟨errors, u, hu⟩ := hrefuses hr
      obtain ⟨left, warnings, -, hanswer⟩ := run_of_refuses h hu
      rw [hanswer, hasCode_failedRun]
      rfl
    · obtain ⟨warnings, left, hanswer⟩ := run_of_performFails h hperforms hf htold
      rw [hanswer, hasCode_failedRun]

end Answers

theorem fault_names (rj rp : FieldReport) :
    ∀ e ∈ faults [("jacks", rj), ("props", rp)], e.1 = "jacks" ∨ e.1 = "props" := by
  intro e he
  obtain ⟨o, ho, hoe⟩ := List.mem_filterMap.1 he
  obtain ⟨x, -, rfl⟩ := Option.map_eq_some_iff.1 hoe
  rcases List.mem_cons.1 ho with rfl | ho
  · exact .inl rfl
  · rw [List.mem_singleton.1 ho]
    exact .inr rfl

/-- What a run of a known action answers when its providers supply mappings. Rejected input is never
performed on, and the errors tell of the two sides only, unless observers change them; accepted
input is performed on once. The code of rejected input is given for rejected input, and also when
the handler fails with a rejection of its own; the code of a failing handler is given for every
other failure of the handler of which it can be told what it is, with its kind and its text. If that
cannot be told, the run does not answer. -/
theorem codes_iff {r : Registry σ} {name : String} {a : Action σ}
    (h : r.get? (.str name) = some a) {jacks props : Value} {s s₁ s₂ : Scene σ}
    {dj dp gj gp : Entries}
    (hdj : Action.Supplies a.descriptor.defaultJacks? (s.binding "action" (.str name)) dj s₁)
    (hdp : Action.Supplies a.descriptor.defaultProps? s₁ dp s₂)
    (hgj : Entries.Given jacks gj) (hgp : Entries.Given props gp) :
    ∃ rj s₃ rp s₄ t answer,
      ((Validator.root.shape a.descriptor.jackTypes).validate (.dict (dj.overlay gj))).runIn s₂ =
        (rj, s₃) ∧
      ((Validator.root.shape a.descriptor.propTypes).validate (.dict (dp.overlay gp))).runIn s₃ =
        (rp, s₄) ∧
      t = s₄.logged .debug Action.logger ("Performing action " ++ a.name) ∧
      ((run r name jacks props).runIn s).1 = answer ∧
      (HasCode answer "VALIDATION_FAILED" ↔
        SideRejected rj rp ∨ ∃ f, PerformFails a t rj rp f ∧ f.isRejection) ∧
      (HasCode answer "PERFORM_FAILED" ↔
        ∃ f, PerformFails a t rj rp f ∧ ¬ f.isRejection ∧ f.isTellable) ∧
      (SideRejected rj rp →
        (∃ f u, a.Refuses jacks props (s.binding "action" (.str name)) f u) ∧
        ∃ errors left warnings, (∀ e ∈ errors, e.1 = "jacks" ∨ e.1 = "props") ∧
          (r.plugins.Discreet → left = .record errors) ∧
          answer = .ok (.failure "run_action" "VALIDATION_FAILED" Failure.validationFailedText
            [("action", .str name), ("errors", left)] warnings)) ∧
      (∀ j p, rj = .ok j → rp = .ok p →
        a.Performs jacks props (s.binding "action" (.str name)) j p t) ∧
      (∀ f, PerformFails a t rj rp f → ¬ f.isRejection → f.isTellable → ∃ warnings,
        answer = .ok (.failure "run_action" "PERFORM_FAILED" (f.kind ++ ": " ++ f.wording)
          [("action", .str name)] warnings)) ∧
      ∀ f, PerformFails a t rj rp f → f.Untold → answer = .error .tooLongToWrite := by
  rcases hj : ((Validator.root.shape a.descriptor.jackTypes).validate
    (.dict (dj.overlay gj))).runIn s₂ with ⟨rj, s₃⟩
  rcases hp : ((Validator.root.shape a.descriptor.propTypes).validate
    (.dict (dp.overlay gp))).runIn s₃ with ⟨rp, s₄⟩
  obtain ⟨reportJ, hrj⟩ := Action.reportOf_shape hj
  obtain ⟨reportP, hrp⟩ := Action.reportOf_shape hp
  obtain ⟨hperforms, hrefuses⟩ := Action.performs_or_refuses (Action.runIn_defaults hdj hdp)
    (Entries.extend_given hdj.distinct hgj) (Entries.extend_given hdp.distinct hgp) hj hp hrj hrp
  have hcode := hasCode_iff h hperforms fun hr => ⟨_, _, hrefuses hr⟩
  refine ⟨rj, s₃, rp, s₄, _, _, rfl, hp, rfl, rfl, ?_, ?_, fun hr => ⟨⟨_, _, hrefuses hr⟩, ?_⟩,
    hperforms, fun f hf hr ht => ?_, fun f hf hu => run_of_performFails_untold h hperforms hf hu⟩
  · rw [hcode, and_iff_left rfl]
    refine or_congr_right (exists_congr fun f => and_congr_right fun _ => ?_)
    by_cases hf : f.isRejection
    · simp [hf, Failure.not_untold_of_isRejection hf]
    · simp [hf]
  · rw [hcode]
    refine (or_iff_right (by simp)).trans (exists_congr fun f => and_congr_right fun _ => ?_)
    by_cases hf : f.isRejection
    · simp [hf]
    · simp only [hf, if_false, and_true, true_and, not_false_eq_true, Bool.false_eq_true]
      exact ⟨Failure.isTellable_of_not_untold hf, Failure.not_untold_of_isTellable⟩
  · obtain ⟨left, warnings, hleft, hanswer⟩ := run_of_refuses h (hrefuses hr)
    exact ⟨_, left, warnings, fault_names reportJ reportP, hleft, hanswer⟩
  · obtain ⟨warnings, left, ha⟩ :=
      run_of_performFails h hperforms hf (Failure.not_untold_of_isTellable ht)
    exact ⟨warnings, ha.trans (congrArg _ (failedRun_of_not_isRejection hr name warnings left))⟩

/-- An action that takes any input and rejects it in its handler. -/
def picky : Action Unit :=
  ⟨0, ⟨"Inner", "Rejects its own input", [], [],
    fun _ _ => throw (.rejected (.record [("amount", .str "too small")])), none, none⟩⟩

def pickyRegistry : Registry Unit := ⟨.empty, [(.str "Inner", picky)], []⟩

/-- A failing handler counts as rejected input: this one is run on accepted input and fails. -/
theorem own_rejection_blames_input :
    (∃ t, picky.Performs .null .null ((Scene.initial ()).binding "action" (.str "Inner"))
      (.record []) (.record []) t) ∧
    ((run pickyRegistry "Inner" .null .null).runIn (.initial ())).1 =
      .ok (.failure "run_action" "VALIDATION_FAILED" Failure.validationFailedText
        [("action", .str "Inner"), ("errors", .record [("amount", .str "too small")])] []) := by
  refine ⟨⟨_, Action.performs_iff.2 rfl⟩, rfl⟩

def greetRegistry : Registry Unit := ⟨.empty, [(.str "Greet", Action.greeter)], []⟩

/-- Nobody is greeted without a name. -/
theorem nameless_greeting_rejected :
    HasCode ((run greetRegistry "Greet" .null .null).runIn (.initial ())).1
      "VALIDATION_FAILED" := by
  have hdj : Action.Supplies Action.greeter.descriptor.defaultJacks?
      ((Scene.initial ()).binding "action" (.str "Greet"))
      [(.str "greeting", .str "Hello"), (.str "mark", .str "!")]
      ((Scene.initial ()).binding "action" (.str "Greet")) :=
    .some rfl ⟨rfl, by decide⟩
  have hknown : greetRegistry.get? (.str "Greet") = some Action.greeter := rfl
  obtain ⟨rj, s₃, rp, s₄, t, answer, hj, hp, -, ha, hrejected, -⟩ :=
    codes_iff hknown hdj (.none _) .null .null
  cases hj
  cases hp
  rw [ha]
  exact hrejected.2 (.inl ⟨_, .inr rfl⟩)

end CheckedActions.Service
