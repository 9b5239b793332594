import CheckedActions.Proofs.EpochMillis
import CheckedActions.Proofs.PlainTypes

/-!
Values as moments. What is read from a text exists, and so does what is made of any other value:
a value gives a moment in universal time or none. The exceptions are whole numbers and fractions too
large for a double, at which the coercion and the validator of dates fail.
-/

namespace CheckedActions

/-! ### What is read exists -/

section
variable {α β : Type} {P : β → Prop}

theorem forall_mem_some {b : β} (h : P b) : ∀ b' ∈ some b, P b' := by
  rintro _ ⟨⟩
  exact h

theorem forall_mem_none : ∀ b ∈ (none : Option β), P b := nofun

theorem forall_mem_bind {o : Option α} {f : α → Option β} (h : ∀ a ∈ o, ∀ b ∈ f a, P b) :
    ∀ b ∈ o >>= f, P b := by
  intro b hb
  obtain ⟨a, ha, hb⟩ := Option.bind_eq_some_iff.1 hb
  exact h a ha b hb

theorem forall_mem_ite {c : Prop} [Decidable c] {o o' : Option β} (h : c → ∀ b ∈ o, P b)
    (h' : ∀ b ∈ o', P b) : ∀ b ∈ if c then o else o', P b := by
  split
  · exact h ‹c›
  · exact h'

end

namespace Date

theorem valid_of? (year month day : Nat) : ∀ d ∈ of? year month day, d.Valid :=
  forall_mem_ite forall_mem_some forall_mem_none

theorem valid_ofWeek? (year week day : Nat) : ∀ d ∈ ofWeek? year week day, d.Valid := by
  refine forall_mem_ite (fun _ => ?_) forall_mem_none
  refine forall_mem_ite (fun hn => forall_mem_some ?_) forall_mem_none
  exact valid_ofDayNumber (by omega) (by omega)

end Date

namespace IsoReader

theorem valid_date? (b : Bytes) (stop : Nat) : ∀ d ∈ date? b stop, d.Valid := by
  refine forall_mem_bind fun year _ => forall_mem_ite (fun _ => ?_) ?_
  · refine forall_mem_bind fun week _ => ?_
    refine forall_mem_ite (fun _ => ?_) (Date.valid_ofWeek? year week 1)
    refine forall_mem_ite (fun _ => forall_mem_none) ?_
    exact forall_mem_bind fun day _ => Date.valid_ofWeek? year week day
  · refine forall_mem_bind fun month _ => forall_mem_ite (fun _ => forall_mem_none) ?_
    refine forall_mem_bind fun day _ => forall_mem_ite (fun _ => ?_) forall_mem_none
    exact Date.valid_of? year month day

/-- The fields read from a text are those of a day and of a time of day. -/
theorem valid_read? (s : String) : ∀ r ∈ read? s, r.1.date.Valid ∧ r.1.TimeValid := by
  refine forall_mem_ite (fun _ => forall_mem_none) (forall_mem_bind fun stop _ => ?_)
  refine forall_mem_bind fun date hdate => ?_
  have htime (clock : Clock) (offset? : Option Int) :
      let t : DateTime := ⟨date, clock.hour, clock.minute, clock.second, clock.micro, none⟩
      ∀ r ∈ if t.TimeValid then some (t, offset?) else none, r.1.date.Valid ∧ r.1.TimeValid := by
    have hvalid := valid_date? _ _ date hdate
    exact forall_mem_ite (fun ht => forall_mem_some ⟨hvalid, ht⟩) forall_mem_none
  refine forall_mem_ite (fun _ => forall_mem_ite (fun _ => ?_) ?_) ?_
  all_goals exact forall_mem_bind fun c _ => htime c.1 c.2

end IsoReader

namespace DateTime

theorem universal_ofText? (text : String) : ∀ t ∈ ofText? text, t.Universal := by
  refine forall_mem_bind fun r hread => ?_
  obtain ⟨hdate, htime⟩ := IsoReader.valid_read? _ r hread
  obtain ⟨u, _ | offset⟩ := r
  · exact forall_mem_some ⟨hdate, htime, rfl⟩
  · exact fun t ht => (ofMicros?_eq_some_iff.1 ht).1

theorem universal_toUniversal? {t : DateTime} (h : t.Valid) :
    ∀ u ∈ t.toUniversal?, u.Universal := by
  intro u hu
  unfold toUniversal? at hu
  split at hu
  · cases hu
    exact h.universal
  · exact (ofMicros?_eq_some_iff.1 hu).1

theorem universal_ofEpochMillis? (x : Binary64) : ∀ t ∈ ofEpochMillis? x, t.Universal := by
  exact forall_mem_bind fun micros _ t ht => (ofMicros?_eq_some_iff.1 ht).1

end DateTime

namespace Value

open Binary64 DateTime

/-- A date or date-time that exists, a fraction that has a value, or any other value. -/
def IsProper : Value → Prop
  | datetime t => t.Valid
  | date d => d.Valid
  | fraction _ den => 0 < den
  | _ => True

/-- Whole numbers and fractions next to no finite double: from `2 ^ 1024 - 2 ^ 970` on. -/
def BeyondDouble : Value → Prop
  | int n => limit ≤ n.natAbs
  | fraction num den => limit * den ≤ num.natAbs
  | _ => False

instance (v : Value) : Decidable v.BeyondDouble := by
  unfold BeyondDouble
  split <;> infer_instance

theorem toInstant_fraction (num : Int) (den : Nat) : (fraction num den).toInstant =
    let x := ofRatio (decide (num < 0)) num.natAbs den
    if x.isFinite then .ok (ofEpochMillis? x) else .error (.beyondDouble true) := by
  simp only [toInstant, toDouble?]
  split <;> rfl

/-- A number is a moment or none if its double is finite, and neither if not. -/
theorem ofDouble_cases {x : Binary64} {beyond : Prop} (h : x.isFinite ↔ ¬ beyond)
    {isFraction : Bool} {r : Except Failure (Option DateTime)}
    (hr : r = if x.isFinite then .ok (ofEpochMillis? x) else .error (.beyondDouble isFraction)) :
    (beyond → ∃ isFraction, r = .error (.beyondDouble isFraction)) ∧
      (¬ beyond → ∃ o, r = .ok o ∧ ∀ t ∈ o, t.Universal) := by
  constructor
  · intro hbeyond
    exact ⟨isFraction, hr.trans (if_neg fun hfinite => h.1 hfinite hbeyond)⟩
  · intro hsmall
    exact ⟨_, hr.trans (if_pos (h.2 hsmall)), universal_ofEpochMillis? x⟩

/-- A value that is not too large for a double is a moment in universal time or none, and any other
is neither. -/
theorem toInstant_cases {v : Value} (hv : v.IsProper) :
    (v.BeyondDouble → ∃ isFraction, v.toInstant = .error (.beyondDouble isFraction)) ∧
      (¬ v.BeyondDouble → ∃ o, v.toInstant = .ok o ∧ ∀ t ∈ o, t.Universal) := by
  cases v with
  | datetime t => exact ⟨False.elim, fun _ => ⟨_, rfl, universal_toUniversal? hv⟩⟩
  | date d => exact ⟨False.elim, fun _ => ⟨_, rfl, forall_mem_some (universal_ofDate hv)⟩⟩
  | str s => exact ⟨False.elim, fun _ => ⟨_, rfl, universal_ofText? s⟩⟩
  | int n => exact ofDouble_cases (isFinite_ofInt.trans Nat.not_le.symm) (toInstant_int n)
  | fraction num den =>
    exact ofDouble_cases ((isFinite_ofRatio hv).trans Nat.not_le.symm) (toInstant_fraction num den)
  | float x => exact ⟨False.elim, fun _ => ⟨_, rfl, universal_ofEpochMillis? x⟩⟩
  | _ => exact ⟨False.elim, fun _ => ⟨none, rfl, forall_mem_none⟩⟩

variable {σ : Type}

theorem runIn_date (v : Value) (s : Scene σ) :
    (Validator.root.date.validate v).runIn s = (checkDate v, s) := by
  have hstep : (Step.run (σ := σ) .date v).runIn s = (checkDate v, s) := Call.runIn_ofExcept _ s
  cases hcheck : checkDate v with
  | ok x => exact Call.runIn_bind_ok (hstep.trans (by rw [hcheck])) _
  | error f => exact Call.runIn_bind_error (hstep.trans (by rw [hcheck])) _

theorem checkDate_eq {v : Value} (h : v ≠ .undefined) : checkDate v = match v.toInstant with
    | .ok (some t) => .ok (.datetime t)
    | .ok none => .error (mismatchOf v .date)
    | .error f => .error f := by
  unfold checkDate
  split
  · exact absurd rfl h
  · rfl

/-- What becomes of a value as a date. One that is not too large for a double gives a moment in
universal time or none; the validator returns that moment, or fails and names the tag of the value.
A whole number or fraction too large for a double is neither: the conversion fails, and the
validator with it. -/
theorem toInstant_outcome {v : Value} (hv : v.IsProper) (s : Scene σ) :
    (¬ v.BeyondDouble → ∃ o, v.toInstant = .ok o ∧ (∀ t ∈ o, t.Universal) ∧
      (v ≠ .undefined → (Validator.root.date.validate v).runIn s = (match o with
        | some t => .ok (.datetime t)
        | none => .error (.mismatch (.str v.tag.name) (.str "date")), s))) ∧
    (v.BeyondDouble → ∃ isFraction, v.toInstant = .error (.beyondDouble isFraction) ∧
      (Validator.root.date.validate v).runIn s = (.error (.beyondDouble isFraction), s)) := by
  obtain ⟨hlarge, hother⟩ := toInstant_cases hv
  constructor
  · intro hsmall
    obtain ⟨o, ho, huniversal⟩ := hother hsmall
    refine ⟨o, ho, huniversal, fun hpresent => ?_⟩
    rw [runIn_date, checkDate_eq hpresent, ho]
    cases o <;> rfl
  · intro hbeyond
    obtain ⟨isFraction, hfails⟩ := hlarge hbeyond
    have hpresent : v ≠ .undefined := by
      rintro rfl
      exact hbeyond
    refine ⟨isFraction, hfails, ?_⟩
    rw [runIn_date, checkDate_eq hpresent, hfails]

/-- The 30th of February is no moment, which the validator says. A number of 310 digits is too large
to be a moment or none. -/
theorem impossible_day_outcome :
    (str "2020-02-30").toInstant = .ok none ∧
      (Validator.root.date.validate (str "2020-02-30")).runIn (.initial ()) =
        (.error (.mismatch (.str "string") (.str "date")), .initial ()) ∧
      ∃ isFraction, (int (pow10 309)).toInstant = .error (.beyondDouble isFraction) := by
  have hnone : DateTime.ofText? "2020-02-30" = none := by decide +kernel
  have hgives : (str "2020-02-30").toInstant = .ok none := congrArg Except.ok hnone
  have hbeyond : (int (pow10 309)).BeyondDouble := by decide +kernel
  have hsmall := (toInstant_outcome (v := str "2020-02-30") trivial (.initial ())).1 id
  have hlarge := (toInstant_outcome (v := int (pow10 309)) trivial (.initial ())).2 hbeyond
  obtain ⟨o, ho, -, hcheck⟩ := hsmall
  obtain ⟨isFraction, hfails, -⟩ := hlarge
  cases hgives.symm.trans ho
  exact ⟨hgives, hcheck nofun, isFraction, hfails⟩

/-- The smallest power of ten that is too large for a double is neither a moment nor none, and no
value of the wrong type either. -/
theorem large_number_fails :
    (int (pow10 309)).toInstant = .error (.beyondDouble false) ∧
      (Validator.root.date.validate (int (pow10 309))).runIn (.initial ()) =
        (.error (.beyondDouble false), .initial ()) := by
  have hfails : (int (pow10 309)).toInstant = .error (.beyondDouble false) := by
    rw [toInstant_int, if_neg (by decide +kernel)]
  have hpresent : int (pow10 309) ≠ .undefined := nofun
  rw [runIn_date, checkDate_eq hpresent, hfails]
  exact ⟨rfl, rfl⟩

end Value
end CheckedActions
