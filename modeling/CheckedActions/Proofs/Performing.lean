import CheckedActions.Action.Basic
import CheckedActions.Proofs.Overlay
import CheckedActions.Proofs.Shapes

/-!
Calls of actions. A call lays the supplied values over the defaults and validates both sides. Its
handler runs once, on what the two sides came to, or not at all. That it runs once is said by
letting any other handler stand in its place.
-/

namespace CheckedActions

variable {σ : Type}

namespace Value

/-- The keys of a dictionary or mapping in order. -/
def keys? (v : Value) : Option (List Value) := v.entries?.map Keyed.keys

@[simp] theorem keys?_record (fields : List (String × Value)) :
    (record fields).keys? = some (fields.map fun e => str e.1) := by
  simp [keys?, record, entries?, Keyed.keys, Function.comp_def]

theorem readField_record (fields : List (String × Value)) (name : String) :
    (record fields).readField name = .ok ((fields.lookup name).getD undefined) := by
  rw [← field?_record]
  rfl

end Value

namespace Action

/-- The action with another handler in the place of its own. -/
def withHandler (a : Action σ) (h : Handler σ) : Action σ :=
  { a with descriptor := { a.descriptor with perform := h } }

/-- All of a call but its performing. -/
def prepare (a : Action σ) (jacks props : Value) : Call σ (Value × Value) := do
  let defaults ← a.defaults
  match ← Call.attempt (a.sanitize defaults jacks props) with
  | .error f =>
    match f.errors? with
    | some errors =>
      Call.log .debug logger
        ("Validation failed for action " ++ a.name ++ ": " ++ errors.text)
      throw f
    | none => throw f
  | .ok sides =>
    Call.log .debug logger ("Performing action " ++ a.name)
    return sides

theorem call_eq_prepare (a : Action σ) (jacks props : Value) :
    a.call jacks props = a.prepare jacks props >>= fun (j, p) => a.descriptor.perform j p := by
  unfold call prepare
  simp only [bind_assoc]
  congr 1
  funext defaults
  congr 1
  funext outcome
  cases outcome with
  | error f =>
    cases h : f.errors? with
    | none => simp [h]
    | some errors => simp [h]
  | ok sides => simp

/-- Preparing does not depend on the handler. -/
theorem prepare_withHandler (a : Action σ) (h : Handler σ) (jacks props : Value) :
    (a.withHandler h).prepare jacks props = a.prepare jacks props := rfl

theorem runIn_call (a : Action σ) (jacks props : Value) (s : Scene σ) :
    (a.call jacks props).runIn s = match (a.prepare jacks props).runIn s with
      | (.ok (j, p), t) => (a.descriptor.perform j p).runIn t
      | (.error f, t) => (.error f, t) := by
  rw [call_eq_prepare, Call.runIn_bind]
  rcases (a.prepare jacks props).runIn s with ⟨_ | ⟨j, p⟩, t⟩ <;> rfl

/-- The call runs the handler once, on the given sides in the given scene, and ends as the handler
does: so it is with any handler. -/
def Performs (a : Action σ) (jacks props : Value) (s : Scene σ) (j p : Value) (t : Scene σ) :
    Prop :=
  ∀ h, ((a.withHandler h).call jacks props).runIn s = (h j p).runIn t

/-- The call fails without running the handler: so it does with any handler. -/
def Refuses (a : Action σ) (jacks props : Value) (s : Scene σ) (f : Failure) (t : Scene σ) : Prop :=
  ∀ h, ((a.withHandler h).call jacks props).runIn s = (.error f, t)

theorem Performs.runIn_call {a : Action σ} {jacks props j p : Value} {s t : Scene σ}
    (h : a.Performs jacks props s j p t) {outcome : Except Failure Value}
    (ho : ((a.descriptor.perform j p).runIn t).1 = outcome) :
    (a.call jacks props).runIn s = (outcome, ((a.descriptor.perform j p).runIn t).2) :=
  (h a.descriptor.perform).trans (Prod.ext ho rfl)

theorem performs_iff {a : Action σ} {jacks props j p : Value} {s t : Scene σ} :
    a.Performs jacks props s j p t ↔ (a.prepare jacks props).runIn s = (.ok (j, p), t) := by
  constructor
  · intro hp
    -- A handler that answers with what it is given tells the sides from one another.
    have h := hp fun j p => pure (.tuple [j, p])
    rw [runIn_call, prepare_withHandler] at h
    rcases hr : (a.prepare jacks props).runIn s with ⟨_ | ⟨j', p'⟩, t'⟩
    · rw [hr] at h
      cases h
    · rw [hr] at h
      cases h
      rfl
  · intro hr h
    rw [runIn_call, prepare_withHandler, hr]
    rfl

theorem refuses_iff {a : Action σ} {jacks props : Value} {f : Failure} {s t : Scene σ} :
    a.Refuses jacks props s f t ↔ (a.prepare jacks props).runIn s = (.error f, t) := by
  constructor
  · intro hp
    have h := hp fun _ _ => pure .null
    rw [runIn_call, prepare_withHandler] at h
    rcases hr : (a.prepare jacks props).runIn s with ⟨f' | ⟨j', p'⟩, t'⟩
    · rw [hr] at h
      cases h
      rfl
    · rw [hr] at h
      cases h
  · intro hr h
    rw [runIn_call, prepare_withHandler, hr]

/-- A call performs or refuses, and which it does is not up to the handler. -/
theorem refuses_or_performs (a : Action σ) (jacks props : Value) (s : Scene σ) :
    (∃ f t, a.Refuses jacks props s f t) ∨ ∃ j p t, a.Performs jacks props s j p t := by
  rcases h : (a.prepare jacks props).runIn s with ⟨f | ⟨j, p⟩, t⟩
  · exact .inl ⟨f, t, refuses_iff.2 h⟩
  · exact .inr ⟨j, p, t, performs_iff.2 h⟩

/-- The default entries a provider supplies in a scene, and the scene it leaves; without a provider
there are none. -/
inductive Supplies : Option (Provider σ) → Scene σ → Entries → Scene σ → Prop
  | none (s) : Supplies none s [] s
  | some {provide s v es t} (h : Call.runIn provide s = (.ok v, t)) (hv : v.IsMapping es) :
    Supplies (some provide) s es t

theorem Supplies.distinct {provider? : Option (Provider σ)} {s t : Scene σ} {es : Entries}
    (h : Supplies provider? s es t) : Keyed.Distinct es := by
  cases h with
  | none => exact .nil
  | some h hv => exact hv.2

theorem runIn_defaultsFrom {provider? : Option (Provider σ)} {s t : Scene σ} {es : Entries}
    (h : Supplies provider? s es t) : (defaultsFrom provider?).runIn s = (.ok es, t) := by
  cases h with
  | none => rfl
  | some h hv =>
    rw [defaultsFrom, Call.runIn_bind_ok h, Entries.ofValue_mapping hv]
    rfl

theorem runIn_defaults {a : Action σ} {s s₁ s₂ : Scene σ} {dj dp : Entries}
    (hj : Supplies a.descriptor.defaultJacks? s dj s₁)
    (hp : Supplies a.descriptor.defaultProps? s₁ dp s₂) :
    a.defaults.runIn s = (.ok (dj, dp), s₂) := by
  rw [defaults, Call.runIn_bind_ok (runIn_defaultsFrom hj),
    Call.runIn_bind_ok (runIn_defaultsFrom hp)]
  rfl

/-- What is validated on a call: the two sides under their names. -/
def input (J P : Entries) : Value := .record [("jacks", .dict J), ("props", .dict P)]

/-- What comes of a shape can always be reported. Its own failures can be told. -/
theorem reportOf_shape {declared : List (String × Field σ)} {es : Entries} {s t : Scene σ}
    {r : Except Failure Value}
    (h : ((Validator.root.shape declared).validate (.dict es)).runIn s = (r, t)) :
    ∃ report, reportOf r = .ok report := by
  obtain ⟨reports, -, -, herror⟩ | ⟨-, hr⟩ :=
    collected_shape (Validator.shapeFields?_shape declared) (v := .dict es) rfl s
  · rw [h] at herror
    cases r with
    | ok x => exact ⟨.ok x, rfl⟩
    | error f =>
      obtain ⟨-, rfl⟩ := (herror f).1 rfl
      exact ⟨.error (.record (faults reports)), rfl⟩
  · rw [h] at hr
    cases hr
    exact ⟨.error (.str Failure.digitLimitText), rfl⟩

/-- Both sides are validated, whatever becomes of the first. -/
theorem runIn_inputType {d : Descriptor σ} {J P : Entries} {s s₁ s₂ : Scene σ}
    {rj rp : Except Failure Value} {reportJ reportP : FieldReport}
    (hj : ((Validator.root.shape d.jackTypes).validate (.dict J)).runIn s = (rj, s₁))
    (hp : ((Validator.root.shape d.propTypes).validate (.dict P)).runIn s₁ = (rp, s₂))
    (hrj : reportOf rj = .ok reportJ) (hrp : reportOf rp = .ok reportP) :
    ((inputType d).validate (input J P)).runIn s =
      (collectFields [("jacks", reportJ), ("props", reportP)], s₂) := by
  have hj' : (Field.run (.checked (Validator.root.shape d.jackTypes)) (input J P) "jacks").runIn s =
      (rj, s₁) := by
    rw [Field.run, input, Value.readField_record]
    exact hj
  have hp' : (Field.run (.checked (Validator.root.shape d.propTypes)) (input J P)
      "props").runIn s₁ = (rp, s₂) := by
    rw [Field.run, input, Value.readField_record]
    exact hp
  exact runIn_shape (Validator.shapeFields?_shape _) rfl
    (.cons hj' hrj (.cons hp' hrp (.nil s₂)))

/-- What the two sides of a call come to: both of them if neither fails, or else a rejection that
tells of each. -/
def bothSides : FieldReport → FieldReport → Except Failure (Value × Value)
  | .ok j, .ok p => .ok (j, p)
  | rj, rp => .error (.rejected (.record (faults [("jacks", rj), ("props", rp)])))

theorem bothSides_eq_ok {rj rp : FieldReport} {j p : Value} (h : bothSides rj rp = .ok (j, p)) :
    rj = .ok j ∧ rp = .ok p := by
  cases rj with
  | error f => cases rp <;> cases h
  | ok j' =>
    cases rp with
    | error f => cases h
    | ok p' =>
      cases h
      exact ⟨rfl, rfl⟩

/-- If a side fails, the call is rejected for the faults of both. -/
theorem bothSides_of_failed {rj rp : Except Failure Value} {reportJ reportP : FieldReport}
    (hrj : reportOf rj = .ok reportJ) (hrp : reportOf rp = .ok reportP)
    (h : ∃ f, rj = .error f ∨ rp = .error f) :
    bothSides reportJ reportP =
      .error (.rejected (.record (faults [("jacks", reportJ), ("props", reportP)]))) := by
  obtain ⟨f, rfl | rfl⟩ := h
  · obtain ⟨entry, -, rfl⟩ := map_eq_ok_iff.1 hrj
    cases reportP <;> rfl
  · obtain ⟨entry, -, rfl⟩ := map_eq_ok_iff.1 hrp
    cases reportJ <;> rfl

/-- The sides validated are the supplied values over the defaults. -/
theorem runIn_sanitize {a : Action σ} {jacks props : Value} {dj dp J P : Entries}
    {s s₁ s₂ : Scene σ} {rj rp : Except Failure Value} {reportJ reportP : FieldReport}
    (hJ : Entries.extend (.dict dj) jacks = .ok J) (hP : Entries.extend (.dict dp) props = .ok P)
    (hj : ((Validator.root.shape a.descriptor.jackTypes).validate (.dict J)).runIn s = (rj, s₁))
    (hp : ((Validator.root.shape a.descriptor.propTypes).validate (.dict P)).runIn s₁ = (rp, s₂))
    (hrj : reportOf rj = .ok reportJ) (hrp : reportOf rp = .ok reportP) :
    (a.sanitize (dj, dp) jacks props).runIn s = (bothSides reportJ reportP, s₂) := by
  have hr := runIn_inputType hj hp hrj hrp
  rw [sanitize, hJ, hP]
  change Call.runIn ((inputType a.descriptor).validate (input J P) >>= _) s = _
  cases reportJ with
  | error f => cases reportP <;> exact Call.runIn_bind_error hr _
  | ok j =>
    cases reportP with
    | error f => exact Call.runIn_bind_error hr _
    | ok p =>
      have hok : collectFields [("jacks", .ok j), ("props", .ok p)] =
          .ok (.record [("jacks", j), ("props", p)]) := rfl
      rw [Call.runIn_bind_ok (hok ▸ hr), Value.readField_record, Value.readField_record]
      rfl

theorem runIn_prepare_ok {a : Action σ} {jacks props : Value} {defaults : Entries × Entries}
    {s s₁ t : Scene σ} {both : Value × Value} (hd : a.defaults.runIn s = (.ok defaults, s₁))
    (hs : (a.sanitize defaults jacks props).runIn s₁ = (.ok both, t)) :
    (a.prepare jacks props).runIn s =
      (.ok both, t.logged .debug logger ("Performing action " ++ a.name)) := by
  have ha : (Call.attempt (a.sanitize defaults jacks props)).runIn s₁ = (.ok (.ok both), t) := by
    rw [Call.runIn_attempt, hs]
  rw [prepare, Call.runIn_bind_ok hd, Call.runIn_bind_ok ha]
  rfl

theorem runIn_prepare_rejected {a : Action σ} {jacks props errors : Value}
    {defaults : Entries × Entries} {s s₁ t : Scene σ} (hd : a.defaults.runIn s = (.ok defaults, s₁))
    (hs : (a.sanitize defaults jacks props).runIn s₁ = (.error (.rejected errors), t)) :
    (a.prepare jacks props).runIn s = (.error (.rejected errors), t.logged .debug logger
      ("Validation failed for action " ++ a.name ++ ": " ++ errors.text)) := by
  have ha : (Call.attempt (a.sanitize defaults jacks props)).runIn s₁ =
      (.ok (.error (.rejected errors)), t) := by
    rw [Call.runIn_attempt, hs]
  rw [prepare, Call.runIn_bind_ok hd, Call.runIn_bind_ok ha]
  rfl

/-- A call performs on what its two sides come to, or else refuses for the faults of both. -/
theorem performs_or_refuses {a : Action σ} {jacks props : Value} {dj dp J P : Entries}
    {s s₁ s₂ s₃ : Scene σ} {rj rp : Except Failure Value} {reportJ reportP : FieldReport}
    (hd : a.defaults.runIn s = (.ok (dj, dp), s₁))
    (hJ : Entries.extend (.dict dj) jacks = .ok J) (hP : Entries.extend (.dict dp) props = .ok P)
    (hj : ((Validator.root.shape a.descriptor.jackTypes).validate (.dict J)).runIn s₁ = (rj, s₂))
    (hp : ((Validator.root.shape a.descriptor.propTypes).validate (.dict P)).runIn s₂ = (rp, s₃))
    (hrj : reportOf rj = .ok reportJ) (hrp : reportOf rp = .ok reportP) :
    (∀ j p, rj = .ok j → rp = .ok p →
      a.Performs jacks props s j p (s₃.logged .debug logger ("Performing action " ++ a.name))) ∧
    ((∃ f, rj = .error f ∨ rp = .error f) →
      let errors := Value.record (faults [("jacks", reportJ), ("props", reportP)])
      a.Refuses jacks props s (.rejected errors) (s₃.logged .debug logger
        ("Validation failed for action " ++ a.name ++ ": " ++ errors.text))) := by
  have hs := runIn_sanitize hJ hP hj hp hrj hrp
  constructor
  · rintro j p rfl rfl
    cases hrj
    cases hrp
    exact performs_iff.2 (runIn_prepare_ok hd hs)
  · intro hfailed
    rw [bothSides_of_failed hrj hrp hfailed] at hs
    exact refuses_iff.2 (runIn_prepare_rejected hd hs)

/-- The sides that pass are what the supplied values over the defaults were validated to. -/
theorem sanitize_eq_ok {a : Action σ} {jacks props j p : Value} {dj dp : Entries} {s : Scene σ}
    (h : ((a.sanitize (dj, dp) jacks props).runIn s).1 = .ok (j, p)) :
    ∃ J P s₁ s₂, Entries.extend (.dict dj) jacks = .ok J ∧
      Entries.extend (.dict dp) props = .ok P ∧
      ((Validator.root.shape a.descriptor.jackTypes).validate (.dict J)).runIn s = (.ok j, s₁) ∧
      ((Validator.root.shape a.descriptor.propTypes).validate (.dict P)).runIn s₁ =
        (.ok p, s₂) := by
  cases hJ : Entries.extend (.dict dj) jacks with
  | error f =>
    rw [sanitize, hJ] at h
    cases h
  | ok J =>
    cases hP : Entries.extend (.dict dp) props with
    | error f =>
      rw [sanitize, hJ, hP] at h
      cases h
    | ok P =>
      rcases hj : ((Validator.root.shape a.descriptor.jackTypes).validate
        (.dict J)).runIn s with ⟨rj, s₁⟩
      rcases hp : ((Validator.root.shape a.descriptor.propTypes).validate
        (.dict P)).runIn s₁ with ⟨rp, s₂⟩
      obtain ⟨reportJ, hrj⟩ := reportOf_shape hj
      obtain ⟨reportP, hrp⟩ := reportOf_shape hp
      rw [runIn_sanitize hJ hP hj hp hrj hrp] at h
      obtain ⟨rfl, rfl⟩ := bothSides_eq_ok h
      rw [reportOf_eq_ok_ok_iff] at hrj hrp
      rw [hrj] at hj
      rw [hrp] at hp
      exact ⟨J, P, s₁, s₂, rfl, rfl, hj, hp⟩

/-- A call that prepares two sides has sanitized its input to them. -/
theorem prepare_eq_ok {a : Action σ} {jacks props : Value} {both : Value × Value} {s t : Scene σ}
    (h : (a.prepare jacks props).runIn s = (.ok both, t)) :
    ∃ defaults s₁, a.defaults.runIn s = (.ok defaults, s₁) ∧
      ((a.sanitize defaults jacks props).runIn s₁).1 = .ok both := by
  rw [prepare, Call.runIn_bind_eq_ok_iff] at h
  obtain ⟨defaults, s₁, hd, h⟩ := h
  rw [Call.runIn_bind_eq_ok_iff] at h
  obtain ⟨outcome, s₂, hs, h⟩ := h
  rw [Call.runIn_attempt, Prod.mk.injEq] at hs
  refine ⟨defaults, s₁, hd, ?_⟩
  rw [Except.ok.inj hs.1]
  cases outcome with
  | ok sides =>
    cases h
    rfl
  | error f =>
    cases hf : f.errors? with
    | none =>
      simp only [hf] at h
      cases h
    | some errors =>
      simp only [hf] at h
      cases h

/-- The fields that a description shows for a side, in order. -/
def described (a : Action σ) (side : String) : Option (List Value) :=
  (a.describe.lookup side).bind Value.keys?

theorem described_jacks (a : Action σ) :
    a.described "jacks" = some (a.descriptor.jackTypes.map fun e => .str e.1) := by
  change (labels a.descriptor.jackTypes).keys? = _
  rw [labels, Value.keys?_record, List.map_map]
  rfl

theorem described_props (a : Action σ) :
    a.described "props" = some (a.descriptor.propTypes.map fun e => .str e.1) := by
  change (labels a.descriptor.propTypes).keys? = _
  rw [labels, Value.keys?_record, List.map_map]
  rfl

/-- The result of a shape has the declared names as its keys. -/
theorem keys?_of_shape {declared : List (String × Field σ)} {es : Entries} {s t : Scene σ}
    {x : Value} (h : ((Validator.root.shape declared).validate (.dict es)).runIn s = (.ok x, t)) :
    x.keys? = some (declared.map fun e => .str e.1) := by
  obtain ⟨reports, -, hok, -⟩ | ⟨-, hr⟩ :=
    collected_shape (Validator.shapeFields?_shape declared) (v := .dict es) rfl s
  · obtain ⟨results, -, hnames, rfl⟩ := (hok x).1 (by rw [h])
    rw [Value.keys?_record]
    have hmap := congrArg (List.map Value.str) hnames
    rw [List.map_map, List.map_map] at hmap
    exact congrArg some hmap
  · rw [h] at hr
    cases hr

/-- The errors of a call tell of a side exactly if it failed, and then hold the errors of that side,
of which there are some. But a side with a field that failed with what cannot be told has no errors:
what is held for it is the text of the failure to tell. -/
def TellsOf (errors : List (String × Value)) (side : String) (r : Except Failure Value) : Prop :=
  ((errors.lookup side).isSome ↔ ∃ f, r = .error f) ∧
    ∀ e, errors.lookup side = some e →
      (∃ own, own ≠ [] ∧ e = .record own ∧ r = .error (.rejected e)) ∨
      r = .error .tooLongToWrite ∧ e = .str Failure.digitLimitText

theorem tellsOf_shape {declared : List (String × Field σ)} {es : Entries} {s t : Scene σ}
    {r : Except Failure Value} {report : FieldReport} {errors : List (String × Value)}
    {side : String} (h : ((Validator.root.shape declared).validate (.dict es)).runIn s = (r, t))
    (hr : reportOf r = .ok report) (he : errors.lookup side = entryOf report) :
    TellsOf errors side r := by
  unfold TellsOf
  rw [he]
  cases r with
  | ok x =>
    cases hr
    simp [entryOf]
  | error f =>
    obtain ⟨reports, -, -, herror⟩ | ⟨-, hhalt⟩ :=
      collected_shape (Validator.shapeFields?_shape declared) (v := .dict es) rfl s
    · rw [h] at herror
      obtain ⟨hne, rfl⟩ := (herror f).1 rfl
      cases hr
      refine ⟨by simp [entryOf], ?_⟩
      rintro e ⟨⟩
      exact .inl ⟨faults reports, hne, rfl, rfl⟩
    · rw [h] at hhalt
      cases hhalt
      cases hr
      refine ⟨by simp [entryOf], ?_⟩
      rintro e ⟨⟩
      exact .inr ⟨rfl, rfl⟩

/-- A call validates the supplied values over the defaults, a present one winning whatever it is. If
both sides are accepted, it performs once on what they come to, whose fields are those described,
and ends as the handler does. Otherwise it performs nothing and tells of each side that failed. -/
theorem performs_once_or_rejects (a : Action σ) {jacks props : Value} {s s₁ s₂ : Scene σ}
    {dj dp gj gp : Entries} (hdj : Supplies a.descriptor.defaultJacks? s dj s₁)
    (hdp : Supplies a.descriptor.defaultProps? s₁ dp s₂)
    (hgj : Entries.Given jacks gj) (hgp : Entries.Given props gp) :
    (∀ k, (dj.overlay gj).get? k = (gj.get? k).or (dj.get? k)) ∧
    (∀ k, (dp.overlay gp).get? k = (gp.get? k).or (dp.get? k)) ∧
    ∃ rj s₃ rp s₄,
      ((Validator.root.shape a.descriptor.jackTypes).validate (.dict (dj.overlay gj))).runIn s₂ =
        (rj, s₃) ∧
      ((Validator.root.shape a.descriptor.propTypes).validate (.dict (dp.overlay gp))).runIn s₃ =
        (rp, s₄) ∧
      Collected (.dict (dj.overlay gj)) a.descriptor.jackTypes s₂ (rj, s₃) ∧
      Collected (.dict (dp.overlay gp)) a.descriptor.propTypes s₃ (rp, s₄) ∧
      (∀ j p, rj = .ok j → rp = .ok p →
        j.keys? = a.described "jacks" ∧ p.keys? = a.described "props" ∧
        a.Performs jacks props s j p
          (s₄.logged .debug logger ("Performing action " ++ a.name))) ∧
      ((∃ f, rj = .error f ∨ rp = .error f) →
        ∃ errors, TellsOf errors "jacks" rj ∧ TellsOf errors "props" rp ∧
          a.Refuses jacks props s (.rejected (.record errors)) (s₄.logged .debug logger
            ("Validation failed for action " ++ a.name ++ ": " ++
              (Value.record errors).text))) := by
  refine ⟨fun k => Keyed.get?_overlay hgj.distinct dj k,
    fun k => Keyed.get?_overlay hgp.distinct dp k, ?_⟩
  rcases hj : ((Validator.root.shape a.descriptor.jackTypes).validate
    (.dict (dj.overlay gj))).runIn s₂ with ⟨rj, s₃⟩
  rcases hp : ((Validator.root.shape a.descriptor.propTypes).validate
    (.dict (dp.overlay gp))).runIn s₃ with ⟨rp, s₄⟩
  obtain ⟨reportJ, hrj⟩ := reportOf_shape hj
  obtain ⟨reportP, hrp⟩ := reportOf_shape hp
  obtain ⟨hperforms, hrefuses⟩ := performs_or_refuses (runIn_defaults hdj hdp)
    (Entries.extend_given hdj.distinct hgj) (Entries.extend_given hdp.distinct hgp) hj hp hrj hrp
  refine ⟨rj, s₃, rp, s₄, rfl, hp, ?_, ?_, fun j p hjok hpok => ⟨?_, ?_, hperforms j p hjok hpok⟩,
    fun hfailed => ?_⟩
  · rw [← hj]
    exact collected_shape (Validator.shapeFields?_shape _) rfl s₂
  · rw [← hp]
    exact collected_shape (Validator.shapeFields?_shape _) rfl s₃
  · rw [keys?_of_shape (hjok ▸ hj), described_jacks]
  · rw [keys?_of_shape (hpok ▸ hp), described_props]
  · have hnames : ([("jacks", reportJ), ("props", reportP)].map (·.1)).Nodup := by simp
    refine ⟨faults [("jacks", reportJ), ("props", reportP)], tellsOf_shape hj hrj ?_,
      tellsOf_shape hp hrp ?_, hrefuses hfailed⟩
    · rw [lookup_faults hnames]
      rfl
    · rw [lookup_faults hnames]
      rfl

/-- What a greeting is by default. -/
def greeting : Call Unit Value :=
  pure (.record [("greeting", .str "Hello"), ("mark", .str "!")])

/-- An action that greets by name, with a greeting and a mark by default. -/
def greeter : Action Unit where
  number := 0
  descriptor := {
    name := "Greet"
    description := "Greets someone by name"
    jackTypes := [("greeting", .checked Validator.root.string.required),
      ("mark", .checked Validator.root.string)]
    propTypes := [("name", .checked Validator.root.string.required)]
    perform := fun _ p => pure p
    defaultJacks? := some greeting
    defaultProps? := none }

/-- An absent mark that is supplied wins over the mark by default. -/
theorem greeter_performs :
    ∃ t, greeter.Performs (.record [("mark", .undefined)]) (.record [("name", .str "Ada")])
      (.initial ()) (.record [("greeting", .str "Hello"), ("mark", .undefined)])
      (.record [("name", .str "Ada")]) t := by
  have hdj : Supplies greeter.descriptor.defaultJacks? (.initial ())
      [(.str "greeting", .str "Hello"), (.str "mark", .str "!")] (.initial ()) :=
    .some rfl ⟨rfl, by decide⟩
  have hgj : Entries.Given (.record [("mark", .undefined)]) [(.str "mark", .undefined)] :=
    .mapping ⟨rfl, by decide⟩
  have hgp : Entries.Given (.record [("name", .str "Ada")]) [(.str "name", .str "Ada")] :=
    .mapping ⟨rfl, by decide⟩
  obtain ⟨-, -, rj, s₃, rp, s₄, hj, hp, -, -, hok, -⟩ :=
    performs_once_or_rejects greeter hdj (.none _) hgj hgp
  cases hj
  cases hp
  exact ⟨_, (hok _ _ rfl rfl).2.2⟩

/-- An action of which a jack fails with what cannot be told. -/
def overflowing : Action Unit where
  number := 0
  descriptor := {
    name := "Overflow"
    description := "Has a jack that fails with what cannot be told"
    jackTypes := overflowFields
    propTypes := []
    perform := fun _ p => pure p
    defaultJacks? := none
    defaultProps? := none }

/-- The jacks fail, and what is told of them is a text that is none of their errors. -/
theorem overflowing_refuses :
    ∃ t, overflowing.Refuses (.record []) (.record []) (.initial ())
      (.rejected (.record [("jacks", .str Failure.digitLimitText)])) t := by
  have hnone : Entries.extend (.dict []) (.record []) = .ok [] := rfl
  have hj : ((Validator.root.shape overflowing.descriptor.jackTypes).validate
      (.dict [])).runIn (.initial ()) = (.error .tooLongToWrite, .initial ()) :=
    runIn_shape_halt (Validator.shapeFields?_shape overflowFields) rfl
      (.here rfl Failure.untold_longNumber)
  have hjacks : reportOf (.error .tooLongToWrite : Except Failure Value) =
      .ok (.error (.str Failure.digitLimitText)) := rfl
  have hprops : reportOf (.ok (.record [])) = .ok (.ok (.record [])) := rfl
  obtain ⟨-, hrefuses⟩ := performs_or_refuses (a := overflowing)
    (runIn_defaults (.none _) (.none _)) hnone hnone hj rfl hjacks hprops
  exact ⟨_, hrefuses ⟨_, .inl rfl⟩⟩

end Action
end CheckedActions
