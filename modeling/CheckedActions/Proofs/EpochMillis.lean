import CheckedActions.Calendar.Timestamp
import CheckedActions.Proofs.Instants
import CheckedActions.Proofs.Rounding

/-!
Whole numbers of milliseconds as moments. The division by a thousand is rounded to a double, which
is too coarse for microseconds more than `2 ^ 33` seconds away from 1970: up to there, and for whole
seconds anywhere, the moment is exact, and in the rest of the calendar it is up to 15 microseconds
off.
-/

namespace CheckedActions

namespace Binary64

/-! ### Whole numbers and quotients as doubles -/

theorem exists_of_isFinite {x : Binary64} (h : x.isFinite) :
    ∃ negative m u, x = .finite negative m u := by
  cases x with
  | finite negative m u => exact ⟨negative, m, u, rfl⟩
  | nan => nomatch h
  | infinity => nomatch h

/-- A quotient below the limit is rounded to a finite double next to it. -/
theorem exists_ofRatio (negative : Bool) {num den : Nat} (hd : 0 < den) (h : num < limit * den) :
    ∃ m u k, ofRatio negative num den = .finite negative m u ∧ m < pow2 53 ∧
      Nearest num den (magnitude m u) k := by
  have hratio : (ofRatio negative num den).isFinite := (isFinite_ofRatio hd).2 h
  obtain ⟨negative', m, u, hfinite⟩ := exists_of_isFinite hratio
  obtain ⟨rfl, hm, hnearest⟩ := ofRatio_eq_finite hd hfinite
  exact ⟨m, u, _, hfinite, hm, hnearest⟩

theorem pow2_le_limit : pow2 1023 ≤ limit := by
  have htop : pow2 1024 = 2 * pow2 1023 := pow2_succ 1023
  have hless : pow2 970 ≤ pow2 1023 := pow2_le_pow2 (by decide)
  unfold limit
  omega

theorem lt_limit {n : Nat} (h : n < pow2 53) {k : Nat} (hk : 0 < k) : n < limit * k :=
  Nat.lt_of_lt_of_le h (Nat.le_trans (pow2_le_pow2 (by decide))
    (Nat.le_trans pow2_le_limit (Nat.le_mul_of_pos_right limit hk)))

/-- Whole numbers of at most 53 binary digits are doubles. -/
theorem exists_ofInt {n : Int} (h : n.natAbs < pow2 53) :
    ∃ m u, ofInt n = .finite (decide (n < 0)) m u ∧ magnitude m u = n.natAbs * scale := by
  obtain ⟨m, u, k, hfinite, -, hnearest⟩ :=
    exists_ofRatio (decide (n < 0)) Nat.one_pos (lt_limit h Nat.one_pos)
  exact ⟨m, u, hfinite, hnearest.eq_of_small Nat.one_pos h (Nat.one_mul _).symm⟩

/-! ### Seconds as microseconds -/

/-- What is left of a double above its whole part lies on its grid. -/
theorem rest_eq (m u : Nat) : ∃ c ≤ m, magnitude m u % scale = c * pow2 u := by
  by_cases hu : u ≤ 1074
  · obtain ⟨i, hi⟩ := Nat.exists_eq_add_of_le' hu
    have hscale : scale = pow2 i * pow2 u := (congrArg pow2 hi).trans (pow2_add i u)
    exact ⟨m % pow2 i, Nat.mod_le _ _, by rw [magnitude, hscale, Nat.mul_mod_mul_right]⟩
  · have hscale : scale ∣ pow2 u := by
      rw [scale_eq]
      exact pow2_dvd_pow2 (by omega)
    refine ⟨0, Nat.zero_le _, ?_⟩
    rw [Nat.zero_mul]
    exact Nat.mod_eq_zero_of_dvd (Nat.dvd_mul_left_of_dvd hscale m)

theorem splitWhole_eq (negative : Bool) {m : Nat} (hm : m < pow2 53) (u : Nat) :
    ∃ m' u', splitWhole negative m u = (magnitude m u / scale, .finite negative m' u') ∧
      magnitude m' u' = magnitude m u % scale := by
  have hless : magnitude m u % scale < limit * scale :=
    Nat.lt_of_lt_of_le (Nat.mod_lt _ scale_pos)
      (Nat.le_mul_of_pos_left _ (Nat.lt_of_lt_of_le (pow2_pos 1023) pow2_le_limit))
  obtain ⟨m', u', k, hfinite, -, hnearest⟩ := exists_ofRatio negative scale_pos hless
  obtain ⟨c, hc, hrest⟩ := rest_eq m u
  refine ⟨m', u', by rw [splitWhole, hfinite], ?_⟩
  rw [hrest] at hnearest ⊢
  exact hnearest.eq_of_small scale_pos (Nat.lt_of_le_of_lt hc hm) (Nat.mul_comm _ _)

/-- A fraction times a million is rounded to a whole number hardly more than half a unit away. -/
theorem mulRoundWhole_near (negative : Bool) {m u : Nat} (hm : magnitude m u < scale) :
    100 * (mulRoundWhole (.finite negative m u) 1000000 * scale) ≤
        100 * (1000000 * magnitude m u) + 51 * scale ∧
      100 * (1000000 * magnitude m u) ≤
        100 * (mulRoundWhole (.finite negative m u) 1000000 * scale) + 51 * scale := by
  have htop : scale * pow2 20 = pow2 (1041 + 53) := by rw [scale_eq, ← pow2_add]
  have hmillion : (1000000 : Nat) < pow2 20 := by decide
  have hless : magnitude m u * 1000000 < pow2 (1041 + 53) := by
    rw [← htop]
    exact Nat.mul_lt_mul'' hm hmillion
  have hproduct : magnitude m u * 1000000 < limit * scale := by
    refine Nat.lt_of_lt_of_le hless (Nat.le_trans ?_ (Nat.mul_le_mul_right _ pow2_le_limit))
    rw [scale_eq, ← pow2_add]
    exact pow2_le_pow2 (by decide)
  obtain ⟨m', u', k, hfinite, -, hnearest⟩ := exists_ofRatio false scale_pos hproduct
  have hunit : k ≤ 1041 := by
    refine hnearest.unit_le ?_
    rw [Nat.mul_comm scale]
    exact Nat.mul_lt_mul_of_pos_right hless scale_pos
  have hgap : 8589934592 * pow2 k ≤ scale := by
    have hpower : (8589934592 : Nat) = pow2 33 := rfl
    rw [hpower, ← pow2_add, scale_eq]
    exact pow2_le_pow2 (by omega)
  have hnear := hnearest.near
  have hround := divHalfEven_near (magnitude m' u') scale_pos
  rw [mulRoundWhole, hfinite, roundWhole]
  omega

end Binary64

namespace DateTime

open Binary64

/-- The microseconds of a double count of seconds, which have its sign. -/
theorem secondsToMicros?_near (negative : Bool) {m : Nat} (hm : m < pow2 53) (u : Nat) :
    ∃ n : Nat, secondsToMicros? (.finite negative m u) = some (if negative then -(n : Int) else n) ∧
      100 * (n * scale) ≤ 100 * (1000000 * magnitude m u) + 51 * scale ∧
      100 * (1000000 * magnitude m u) ≤ 100 * (n * scale) + 51 * scale := by
  obtain ⟨m', u', hsplit, hrest⟩ := splitWhole_eq negative hm u
  have hnear := mulRoundWhole_near negative (hrest ▸ Nat.mod_lt _ scale_pos)
  have hwhole := Nat.div_add_mod (magnitude m u) scale
  rw [hrest] at hnear
  refine ⟨magnitude m u / scale * 1000000 + mulRoundWhole (.finite negative m' u') 1000000, ?_, ?_⟩
  · rw [secondsToMicros?, hsplit]
    rfl
  · rw [Nat.add_mul, Nat.mul_right_comm, Nat.mul_comm _ scale]
    omega

/-- A count of seconds next to a count of milliseconds has the same microseconds, give or take
fewer than the error allows. -/
theorem micros_near (error : Nat) {millis seconds gap micros : Nat}
    (hseconds : 2 * (seconds * 1000) ≤ 2 * (millis * scale) + 1000 * gap ∧
      2 * (millis * scale) ≤ 2 * (seconds * 1000) + 1000 * gap)
    (hmicros : 100 * (micros * scale) ≤ 100 * (1000000 * seconds) + 51 * scale ∧
      100 * (1000000 * seconds) ≤ 100 * (micros * scale) + 51 * scale)
    (herror : 50000000 * gap + 51 * scale < 100 * (error * scale)) :
    micros < 1000 * millis + error ∧ 1000 * millis < micros + error := by
  constructor
  · refine Nat.lt_of_mul_lt_mul_right (a := scale) ?_
    rw [Nat.add_mul, Nat.mul_assoc]
    omega
  · refine Nat.lt_of_mul_lt_mul_right (a := scale) ?_
    rw [Nat.add_mul, Nat.mul_assoc]
    omega

theorem le_of_seconds {seconds micros least : Nat} (h : least * scale ≤ seconds)
    (hmicros : 100 * (1000000 * seconds) ≤ 100 * (micros * scale) + 51 * scale) :
    1000000 * least ≤ micros := by
  have hpos := scale_pos
  refine Nat.le_of_lt_succ (Nat.lt_of_mul_lt_mul_right (a := scale) ?_)
  rw [Nat.succ_mul micros, Nat.mul_assoc]
  omega

theorem divNat_eq {negative : Bool} {m u n : Nat} (h : magnitude m u = n * scale) (k : Nat) :
    (Binary64.finite negative m u).divNat k = ofRatio negative n k := by
  rw [divNat, h, Nat.mul_comm scale, ofRatio_mul scale_pos]

/-- The unit of a count of seconds from milliseconds, by the binary digits of the seconds. -/
theorem unit_le {millis seconds k : Nat} (h : Nearest millis 1000 seconds k) {i : Nat}
    (hless : millis < pow2 i * 1000) : k ≤ 1021 + i := by
  refine h.unit_le ?_
  have hscale : pow2 (1021 + i + 53) = pow2 i * scale := by
    rw [scale_eq, ← pow2_add]
    congr 1
    omega
  rw [hscale, Nat.mul_left_comm, ← Nat.mul_assoc, Nat.mul_comm (pow2 i)]
  exact Nat.mul_lt_mul_of_pos_right (Nat.mul_comm (pow2 i) 1000 ▸ hless) scale_pos

theorem gap_le {k j : Nat} (h : k + j ≤ 1074) : pow2 j * pow2 k ≤ scale := by
  rw [← pow2_add, scale_eq, Nat.add_comm]
  exact pow2_le_pow2 h

/-- Milliseconds of whole seconds lie on the grid of every unit. -/
theorem seconds_eq {millis seconds k : Nat} (h : Nearest millis 1000 seconds k) (hk : k ≤ 1074)
    (hwhole : 1000 ∣ millis) : seconds * 1000 = millis * scale := by
  obtain ⟨j, rfl⟩ := hwhole
  have hgrid : pow2 k ∣ j * scale := Nat.dvd_mul_left_of_dvd (pow2_dvd_pow2 hk) j
  rw [h.eq_of_grid (by decide) hgrid (Nat.mul_assoc 1000 j scale), Nat.mul_comm, Nat.mul_assoc]

/-- The microseconds of a count of milliseconds in the calendar or around it, rounded twice: they
are off by up to 15, and exact near 1970 and at whole seconds. -/
theorem micros_of_nearest {millis seconds k micros : Nat} (h : Nearest millis 1000 seconds k)
    (hless : millis < pow2 38 * 1000)
    (hmicros : 100 * (micros * scale) ≤ 100 * (1000000 * seconds) + 51 * scale ∧
      100 * (1000000 * seconds) ≤ 100 * (micros * scale) + 51 * scale) :
    (micros < 1000 * millis + 16 ∧ 1000 * millis < micros + 16) ∧
      (millis ≤ pow2 33 * 1000 ∨ 1000 ∣ millis → micros = 1000 * millis) := by
  have hpos := scale_pos
  have hunit := unit_le h hless
  have hseconds := And.intro h.above h.below
  -- up to `2 ^ 38` seconds doubles are `2 ^ -15` apart, up to `2 ^ 33` seconds `2 ^ -20`, and only
  -- half of the latter is less than half a microsecond
  refine ⟨?_, fun hnice => ?_⟩
  · have hgap : pow2 15 * pow2 k ≤ scale := gap_le (by omega)
    have hfifteen : pow2 15 = 32768 := rfl
    rw [hfifteen] at hgap
    exact micros_near 16 hseconds hmicros (by omega)
  · by_cases hwhole : 1000 ∣ millis
    · have heq := seconds_eq h (by omega) hwhole
      have hsame : 2 * (seconds * 1000) ≤ 2 * (millis * scale) + 1000 * 0 ∧
          2 * (millis * scale) ≤ 2 * (seconds * 1000) + 1000 * 0 := by omega
      have hone := micros_near 1 hsame hmicros (by omega)
      omega
    · have hclose : millis < pow2 33 * 1000 := by
        refine Nat.lt_of_le_of_ne (hnice.resolve_right hwhole) fun heq => hwhole ?_
        rw [heq]
        exact Nat.dvd_mul_left 1000 _
      have hnear := unit_le h hclose
      have hgap : pow2 20 * pow2 k ≤ scale := gap_le (by omega)
      have htwenty : pow2 20 = 1048576 := rfl
      rw [htwenty] at hgap
      have hone := micros_near 1 hseconds hmicros (by omega)
      omega

theorem natAbs_sub_signed (n : Int) (micros : Nat) :
    ((if decide (n < 0) then -(micros : Int) else micros) - 1000 * n).natAbs =
      ((micros : Int) - 1000 * n.natAbs).natAbs := by
  by_cases hn : n < 0
  · simp only [hn, decide_true, if_true]
    omega
  · simp only [hn, decide_false, Bool.false_eq_true, if_false]
    omega

/-- Counts of milliseconds in the calendar and around it are microseconds up to 15, and exactly so
near 1970 and at whole seconds. -/
theorem secondsToMicros?_millis {n : Int} (h : n.natAbs < pow2 38 * 1000) :
    ∃ micros, secondsToMicros? ((ofInt n).divNat 1000) = some micros ∧
      (micros - 1000 * n).natAbs ≤ 15 ∧
      (n.natAbs ≤ pow2 33 * 1000 ∨ 1000 ∣ n → micros = 1000 * n) := by
  have hsmall : n.natAbs < pow2 53 := Nat.lt_trans h (by decide)
  have hthousand : 0 < 1000 := by decide
  obtain ⟨m, u, hint, hmagnitude⟩ := exists_ofInt hsmall
  obtain ⟨m', u', k, hratio, hm', hnearest⟩ :=
    exists_ofRatio (decide (n < 0)) hthousand (lt_limit hsmall hthousand)
  obtain ⟨micros, hmicros, hnear⟩ := secondsToMicros?_near (decide (n < 0)) hm' u'
  obtain ⟨hoff, hexact⟩ := micros_of_nearest hnearest h hnear
  have hsigned := natAbs_sub_signed n micros
  refine ⟨_, by rw [hint, divNat_eq hmagnitude, hratio, hmicros], ?_, fun hnice => ?_⟩
  · rw [hsigned]
    omega
  · rw [hexact (hnice.imp id Int.natAbs_dvd_natAbs.2)] at hsigned ⊢
    omega

/-- A double next to a large whole number is large. -/
theorem le_magnitude_ofInt {n : Int} (h : pow2 38 * 1000 ≤ n.natAbs) {negative : Bool} {m u : Nat}
    (hint : ofInt n = .finite negative m u) : pow2 38 * 1000 * scale ≤ magnitude m u := by
  obtain ⟨-, -, hnearest⟩ := ofRatio_eq_finite Nat.one_pos hint
  rcases Nat.lt_or_ge n.natAbs (pow2 53) with hsmall | hlarge
  · rw [hnearest.eq_of_small Nat.one_pos hsmall (Nat.one_mul _).symm]
    exact Nat.mul_le_mul_right _ h
  · have hpower : pow2 53 * scale = pow2 1127 := by rw [scale_eq, ← pow2_add]
    have hle : pow2 38 * 1000 * scale ≤ pow2 53 * scale := Nat.mul_le_mul_right _ (by decide)
    rw [hpower] at hle
    refine Nat.le_trans hle (hnearest.pow2_le Nat.one_pos ?_)
    rw [← hpower, Nat.one_mul]
    exact Nat.mul_le_mul_right _ hlarge

theorem exists_of_divNat {x : Binary64} {k : Nat} {negative : Bool} {m u : Nat}
    (h : x.divNat k = .finite negative m u) : ∃ negative' m' u', x = .finite negative' m' u' ∧
      ofRatio negative' (magnitude m' u') (scale * k) = .finite negative m u := by
  cases x with
  | finite negative' m' u' => exact ⟨negative', m', u', rfl, h⟩
  | nan => nomatch h
  | infinity => nomatch h

theorem exists_of_secondsToMicros? {x : Binary64} {micros : Int}
    (h : secondsToMicros? x = some micros) : ∃ negative m u, x = .finite negative m u := by
  cases x with
  | finite negative m u => exact ⟨negative, m, u, rfl⟩
  | nan => nomatch h
  | infinity => nomatch h

/-- Counts of milliseconds far from the calendar stay far from it. -/
theorem le_secondsToMicros? {n : Int} (h : pow2 38 * 1000 ≤ n.natAbs) {micros : Int}
    (hmicros : secondsToMicros? ((ofInt n).divNat 1000) = some micros) :
    1000000 * pow2 38 ≤ micros.natAbs := by
  have hden : 0 < scale * 1000 := Nat.mul_pos scale_pos (by decide)
  obtain ⟨negative, m, u, hseconds⟩ := exists_of_secondsToMicros? hmicros
  obtain ⟨negative', m', u', hint, hratio⟩ := exists_of_divNat hseconds
  have hlarge := le_magnitude_ofInt h hint
  obtain ⟨-, hm, hnearest⟩ := ofRatio_eq_finite hden hratio
  have hless : pow2 38 * scale ≤ magnitude m u := by
    have hpower : pow2 38 * scale = pow2 1112 := by rw [scale_eq, ← pow2_add]
    have hquotient : scale * 1000 * pow2 1112 ≤ magnitude m' u' * scale := by
      rw [← hpower, Nat.mul_comm, ← Nat.mul_assoc, Nat.mul_right_comm, Nat.mul_right_comm _ scale]
      exact Nat.mul_le_mul_right _ hlarge
    rw [hpower]
    exact hnearest.pow2_le hden hquotient
  obtain ⟨n', hn', -, hbelow⟩ := secondsToMicros?_near negative hm u
  rw [hseconds, hn', Option.some.injEq] at hmicros
  rw [← hmicros]
  have hle : 1000000 * pow2 38 ≤ n' := le_of_seconds hless hbelow
  split
  · rwa [Int.natAbs_neg, Int.natAbs_natCast]
  · rwa [Int.natAbs_natCast]

/-! ### Moments in the calendar -/

theorem epochMicros_eq : epochMicros = 62135596800000000 := rfl

theorem endMicros_eq : endMicros = 315537897600000000 := rfl

theorem Universal.microsecond_eq {t : DateTime} (h : t.Universal) :
    (t.microsecond : Int) = t.localMicros % 1000000 := by
  have hless := h.time_ok.2.2.2
  unfold microsPerSecond at hless
  unfold localMicros timeMicros microsPerSecond microsPerDay
  omega

theorem Universal.timestamp?_eq {t : DateTime} (h : t.Universal) :
    t.timestamp? = some t.stamp := by
  rw [timestamp?, h.offset_eq, h.toUniversal?_eq]
  rfl

/-- A timestamp ends in the millisecond. -/
theorem exists_stamp (t : DateTime) :
    ∃ front, t.stamp = front ++ "." ++ zeroPad 3 (toString (t.microsecond / 1000)) ++ "Z" := by
  unfold stamp
  exact ⟨_, rfl⟩

theorem natAbs_lt_of_inCalendar {n : Int} (h : InCalendar (epochMicros + 1000 * n)) :
    n.natAbs < pow2 53 := by
  have hpower : pow2 53 = 9007199254740992 := rfl
  unfold InCalendar at h
  rw [endMicros_eq, epochMicros_eq] at h
  omega

theorem ofEpochMillis?_eq {x : Binary64} {micros : Int}
    (h : secondsToMicros? (x.divNat 1000) = some micros) :
    ofEpochMillis? x = ofMicros? (epochMicros + micros) := by
  rw [ofEpochMillis?, h]
  rfl

/-- Rounding does not take a count of milliseconds over the ends of the calendar. -/
theorem inCalendar_rounded {n micros : Int} (hoff : (micros - 1000 * n).natAbs ≤ 15)
    (hexact : 1000 ∣ n → micros = 1000 * n) :
    InCalendar (epochMicros + micros) ↔ InCalendar (epochMicros + 1000 * n) := by
  unfold InCalendar
  rw [endMicros_eq, epochMicros_eq]
  by_cases hwhole : 1000 ∣ n
  · rw [hexact hwhole]
  · omega

theorem not_inCalendar_of_far {micros : Int} (h : 1000000 * pow2 38 ≤ micros.natAbs) :
    ¬ InCalendar (epochMicros + micros) := by
  have hpower : pow2 38 = 274877906944 := rfl
  unfold InCalendar
  rw [endMicros_eq, epochMicros_eq]
  omega

/-- A count of milliseconds is a moment exactly if the calendar has it. -/
theorem ofEpochMillis?_ofInt (n : Int) :
    (InCalendar (epochMicros + 1000 * n) → ∃ t, ofEpochMillis? (ofInt n) = some t ∧ t.Universal ∧
      (t.localMicros - (epochMicros + 1000 * n)).natAbs ≤ 15 ∧
      (n.natAbs ≤ pow2 33 * 1000 ∨ 1000 ∣ n → t.localMicros = epochMicros + 1000 * n)) ∧
    (¬ InCalendar (epochMicros + 1000 * n) → ofEpochMillis? (ofInt n) = none) := by
  rcases Nat.lt_or_ge n.natAbs (pow2 38 * 1000) with hnear | hfar
  · obtain ⟨micros, hmicros, hoff, hexact⟩ := secondsToMicros?_millis hnear
    have hcalendar := inCalendar_rounded hoff fun hwhole => hexact (.inr hwhole)
    rw [ofEpochMillis?_eq hmicros]
    constructor
    · intro hin
      obtain ⟨t, ht, huniversal, hcount⟩ := exists_ofMicros? (hcalendar.2 hin)
      refine ⟨t, ht, huniversal, ?_, fun hnice => ?_⟩
      · rw [hcount]
        omega
      · rw [hcount, hexact hnice]
    · exact fun hout => ofMicros?_eq_none_iff.2 (mt hcalendar.1 hout)
  · constructor
    · intro hin
      refine absurd hin (not_inCalendar_of_far ?_)
      generalize pow2 38 = far at hfar ⊢
      omega
    · intro _
      cases hmicros : secondsToMicros? ((ofInt n).divNat 1000) with
      | none =>
        rw [ofEpochMillis?, hmicros]
        rfl
      | some micros =>
        rw [ofEpochMillis?_eq hmicros]
        exact ofMicros?_eq_none_iff.2 (not_inCalendar_of_far (le_secondsToMicros? hfar hmicros))

end DateTime

namespace Value

open Binary64 DateTime

theorem toInstant_int (n : Int) : (int n).toInstant =
    if (ofInt n).isFinite then .ok (ofEpochMillis? (ofInt n))
    else .error (.beyondDouble false) := by
  simp only [toInstant, toDouble?]
  split <;> rfl

theorem isFinite_ofInt {n : Int} : (ofInt n).isFinite ↔ n.natAbs < limit := by
  rw [← Nat.mul_one limit]
  exact isFinite_ofRatio Nat.one_pos

/-- A count of milliseconds that the calendar has gives a moment at most 15 microseconds off, whose
timestamp shows the millisecond or the one before it. Up to `2 ^ 33` seconds from 1970, and for
whole seconds, the moment is exact and its timestamp shows the millisecond. Any other count that is
small enough for a double gives no moment. -/
theorem toInstant_millis (n : Int) :
    (InCalendar (epochMicros + 1000 * n) → ∃ t, (int n).toInstant = .ok (some t) ∧ t.Universal ∧
      (t.localMicros - (epochMicros + 1000 * n)).natAbs ≤ 15 ∧
      ∃ (front : String) (millis : Nat),
        t.timestamp? = some (front ++ "." ++ zeroPad 3 (toString millis) ++ "Z") ∧
        (millis = n % 1000 ∨ millis = (n - 1) % 1000) ∧
        (n.natAbs ≤ pow2 33 * 1000 ∨ 1000 ∣ n →
          t.localMicros = epochMicros + 1000 * n ∧ millis = n % 1000)) ∧
    (¬ InCalendar (epochMicros + 1000 * n) → n.natAbs < limit →
      (int n).toInstant = .ok none) := by
  obtain ⟨hin, hout⟩ := ofEpochMillis?_ofInt n
  have hfinite : n.natAbs < limit → (int n).toInstant =
      .ok (ofEpochMillis? (ofInt n)) := fun hn => by
    rw [toInstant_int, if_pos (isFinite_ofInt.2 hn)]
  constructor
  · intro h
    obtain ⟨t, ht, huniversal, hoff, hexact⟩ := hin h
    obtain ⟨front, hfront⟩ := t.exists_stamp
    have hmicrosecond := huniversal.microsecond_eq
    refine ⟨t, ?_, huniversal, hoff, front, t.microsecond / 1000, ?_, ?_, fun hnice => ?_⟩
    · rw [hfinite (Nat.mul_one limit ▸ lt_limit (natAbs_lt_of_inCalendar h) Nat.one_pos), ht]
    · rw [huniversal.timestamp?_eq, hfront]
    · rw [epochMicros_eq] at hoff
      omega
    · have hcount := hexact hnice
      refine ⟨hcount, ?_⟩
      rw [hcount, epochMicros_eq] at hmicrosecond
      omega
  · intro h hsmall
    rw [hfinite hsmall, hout h]

/-- A millisecond of a leap day, and the first one after the calendar. -/
theorem leap_day_millis :
    (∃ (t : DateTime) (front : String), (int 951782400123).toInstant = .ok (some t) ∧
      t.localMicros = epochMicros + 1000 * 951782400123 ∧
      t.timestamp? = some (front ++ "." ++ zeroPad 3 (toString 123) ++ "Z")) ∧
    (int 253402300800000).toInstant = .ok none := by
  constructor
  · obtain ⟨t, ht, -, -, front, millis, hstamp, -, hexact⟩ :=
      (toInstant_millis 951782400123).1 (by decide)
    obtain ⟨hcount, hmillis⟩ := hexact (.inl (by decide))
    have hshown : millis = 123 := by omega
    exact ⟨t, front, ht, hcount, by rw [hstamp, hshown]⟩
  · exact (toInstant_millis 253402300800000).2 (by decide) (by decide +kernel)

/-- The first count after `2 ^ 33` seconds is a microsecond short, and its timestamp shows the
millisecond before. -/
theorem late_millis_inexact :
    let t : DateTime := ⟨⟨2242, 3, 16⟩, 12, 56, 32, 999, some 0⟩
    InCalendar (epochMicros + 1000 * 8589934592001) ∧
      (int 8589934592001).toInstant = .ok (some t) ∧
      t.localMicros = epochMicros + 1000 * 8589934592001 - 1 ∧
      t.timestamp? = some "2242-03-16T12:56:32.000Z" := by
  intro t
  have hread : ofEpochMillis? (ofInt 8589934592001) = some t := by decide +kernel
  refine ⟨by decide, ?_, by decide, by decide +kernel⟩
  rw [toInstant_int, if_pos (by decide +kernel), hread]

end Value
end CheckedActions
