import CheckedActions.Proofs.Numerals

/-!
Doubles nearest to a quotient: they lie within half a unit of it, they are exact where the quotient
is on their grid, and they are finite below the limit of the format.
-/

namespace CheckedActions

theorem pow2_add (m n : Nat) : pow2 (m + n) = pow2 m * pow2 n := Nat.pow_add 2 m n

theorem pow2_succ (n : Nat) : pow2 (n + 1) = 2 * pow2 n := Nat.pow_succ'

theorem pow2_le_pow2 {m n : Nat} (h : m ≤ n) : pow2 m ≤ pow2 n :=
  Nat.pow_le_pow_right (by decide) h

theorem pow2_dvd_pow2 {m n : Nat} (h : m ≤ n) : pow2 m ∣ pow2 n := Nat.pow_dvd_pow 2 h

theorem pow2_lt_pow2_iff {m n : Nat} : pow2 m < pow2 n ↔ m < n :=
  Nat.pow_lt_pow_iff_right (by decide)

/-! ### Rounded quotients -/

/-- A rounded quotient is within half of the divisor. -/
theorem divHalfEven_near (num : Nat) {den : Nat} (hd : 0 < den) :
    2 * (divHalfEven num den * den) ≤ 2 * num + den ∧
      2 * num ≤ 2 * (divHalfEven num den * den) + den := by
  have hsplit := Nat.div_add_mod num den
  have hless := Nat.mod_lt num hd
  rw [Nat.mul_comm] at hsplit
  simp only [divHalfEven]
  split
  · omega
  · split
    · rw [Nat.add_one_mul (num / den)]
      omega
    · split
      · omega
      · rw [Nat.add_one_mul (num / den)]
        omega

theorem div_le_divHalfEven (num den : Nat) : num / den ≤ divHalfEven num den := by
  simp only [divHalfEven]
  split
  · exact Nat.le_refl _
  · split
    · exact Nat.le_succ _
    · split
      · exact Nat.le_refl _
      · exact Nat.le_succ _

theorem divHalfEven_le {num den k : Nat} (hd : 0 < den) (h : num ≤ k * den) :
    divHalfEven num den ≤ k := by
  have hnear := (divHalfEven_near num hd).1
  have hlt : divHalfEven num den * den < (k + 1) * den := by
    rw [Nat.add_one_mul]
    omega
  exact Nat.le_of_lt_succ (Nat.lt_of_mul_lt_mul_right hlt)

/-- Halfway above an odd number the next one is the nearest. -/
theorem succ_le_divHalfEven {num den k : Nat} (hd : 0 < den) (hk : k % 2 = 1)
    (h : (2 * k + 1) * den ≤ 2 * num) : k + 1 ≤ divHalfEven num den := by
  have hsplit := Nat.div_add_mod num den
  rw [Nat.mul_comm] at hsplit
  rw [Nat.add_one_mul, Nat.mul_assoc] at h
  have hle : k ≤ num / den := (Nat.le_div_iff_mul_le hd).2 (by omega)
  rcases Nat.lt_or_eq_of_le hle with hlt | heq
  · exact Nat.le_trans hlt (div_le_divHalfEven num den)
  · rw [← heq] at hsplit
    have heven : ¬ k % 2 = 0 := by omega
    simp only [divHalfEven, ← heq, if_neg heven]
    split
    · omega
    · exact Nat.le_of_eq (ite_self (k + 1)).symm

namespace Binary64

theorem scale_eq : scale = pow2 1074 := rfl

theorem scale_pos : 0 < scale := pow2_pos 1074

/-- The unit of the doubles around a quotient. -/
def unitOf (num den : Nat) : Nat := (num * scale / den).log2 - 52

theorem ofRatio_eq (negative : Bool) (num den : Nat) : ofRatio negative num den =
    if divHalfEven (num * scale) (den * pow2 (unitOf num den)) = pow2 53 then
      ofParts negative (pow2 52) (unitOf num den + 1)
    else ofParts negative (divHalfEven (num * scale) (den * pow2 (unitOf num den)))
      (unitOf num den) := rfl

theorem lt_unitOf (num : Nat) {den : Nat} (hd : 0 < den) :
    num * scale < den * pow2 (unitOf num den + 53) := by
  rw [Nat.mul_comm den, ← Nat.div_lt_iff_lt_mul hd]
  refine Nat.lt_of_lt_of_le Nat.lt_log2_self (pow2_le_pow2 ?_)
  unfold unitOf
  omega

theorem unitOf_le (num : Nat) {den : Nat} (hd : 0 < den) :
    unitOf num den = 0 ∨ den * pow2 (unitOf num den + 52) ≤ num * scale := by
  rcases Nat.eq_zero_or_pos (unitOf num den) with hzero | hpos
  · exact .inl hzero
  · refine .inr ?_
    have hunit : unitOf num den + 52 = (num * scale / den).log2 := by
      unfold unitOf at hpos ⊢
      omega
    have hne : num * scale / den ≠ 0 := by
      intro hnone
      rw [hnone] at hunit
      have hlog : Nat.log2 0 = 0 := rfl
      omega
    rw [hunit, Nat.mul_comm, ← Nat.le_div_iff_mul_le hd]
    exact Nat.log2_self_le hne

/-- So many units of `1 / scale` are as near to a quotient as doubles of the given unit come. -/
structure Nearest (num den magnitude unit : Nat) : Prop where
  least : unit = 0 ∨ den * pow2 (unit + 52) ≤ num * scale
  most : num * scale < den * pow2 (unit + 53)
  grid : pow2 unit ∣ magnitude
  above : 2 * (magnitude * den) ≤ 2 * (num * scale) + den * pow2 unit
  below : 2 * (num * scale) ≤ 2 * (magnitude * den) + den * pow2 unit

theorem nearest_rounded (num : Nat) {den : Nat} (hd : 0 < den) :
    Nearest num den (divHalfEven (num * scale) (den * pow2 (unitOf num den)) *
      pow2 (unitOf num den)) (unitOf num den) := by
  have hnear := divHalfEven_near (num * scale) (Nat.mul_pos hd (pow2_pos (unitOf num den)))
  have hsides : divHalfEven (num * scale) (den * pow2 (unitOf num den)) * pow2 (unitOf num den) *
      den = divHalfEven (num * scale) (den * pow2 (unitOf num den)) *
        (den * pow2 (unitOf num den)) := by
    rw [Nat.mul_assoc, Nat.mul_comm den]
  refine ⟨unitOf_le num hd, lt_unitOf num hd, Nat.dvd_mul_left _ _, ?_, ?_⟩
  · rw [hsides]
    exact hnear.1
  · rw [hsides]
    exact hnear.2

/-- The significand of a quotient is not above `2 ^ 53`. -/
theorem rounded_le (num : Nat) {den : Nat} (hd : 0 < den) :
    divHalfEven (num * scale) (den * pow2 (unitOf num den)) ≤ pow2 53 := by
  refine divHalfEven_le (Nat.mul_pos hd (pow2_pos _)) ?_
  have hmost := lt_unitOf num hd
  rw [Nat.add_comm, pow2_add, ← Nat.mul_assoc, Nat.mul_comm den, Nat.mul_assoc] at hmost
  exact Nat.le_of_lt hmost

theorem ofParts_eq_finite {negative negative' : Bool} {significand unit m u : Nat}
    (h : ofParts negative significand unit = .finite negative' m u) :
    negative' = negative ∧ m = significand ∧ u = unit := by
  unfold ofParts at h
  split at h
  · nomatch h
  · cases h
    exact ⟨rfl, rfl, rfl⟩

/-- A finite double rounded from a quotient keeps its sign and is as near to it as doubles come. -/
theorem ofRatio_eq_finite {negative negative' : Bool} {num den m u : Nat} (hd : 0 < den)
    (h : ofRatio negative num den = .finite negative' m u) :
    negative' = negative ∧ m < pow2 53 ∧
      Nearest num den (magnitude m u) (unitOf num den) := by
  have hnearest := nearest_rounded num hd
  rw [ofRatio_eq] at h
  split at h
  · rename_i hcarry
    obtain ⟨rfl, rfl, rfl⟩ := ofParts_eq_finite h
    rw [hcarry] at hnearest
    have hmagnitude : magnitude (pow2 52) (unitOf num den + 1) =
        pow2 53 * pow2 (unitOf num den) := by
      rw [magnitude, ← pow2_add, ← pow2_add]
      congr 1
      omega
    rw [hmagnitude]
    exact ⟨rfl, by decide, hnearest⟩
  · rename_i hne
    obtain ⟨rfl, rfl, rfl⟩ := ofParts_eq_finite h
    exact ⟨rfl, Nat.lt_of_le_of_ne (rounded_le num hd) hne, hnearest⟩

/-! ### What is near enough is equal -/

section
variable {num den M k : Nat}

theorem Nearest.unit_le (h : Nearest num den M k) {K : Nat}
    (hlt : num * scale < den * pow2 (K + 53)) : k ≤ K := by
  rcases h.least with hzero | hleast
  · omega
  · have hpow : pow2 (k + 52) < pow2 (K + 53) :=
      Nat.lt_of_mul_lt_mul_left (Nat.lt_of_le_of_lt hleast hlt)
    have := pow2_lt_pow2_iff.1 hpow
    omega

/-- How near a double comes to a number of its own scale. -/
theorem Nearest.near {n : Nat} (h : Nearest n scale M k) :
    2 * M ≤ 2 * n + pow2 k ∧ 2 * n ≤ 2 * M + pow2 k := by
  have habove := h.above
  have hbelow := h.below
  rw [Nat.mul_comm scale, ← Nat.mul_assoc, ← Nat.mul_assoc, ← Nat.add_mul] at habove hbelow
  exact ⟨Nat.le_of_mul_le_mul_right habove scale_pos, Nat.le_of_mul_le_mul_right hbelow scale_pos⟩

theorem Nearest.exists_units (h : Nearest num den M k) :
    ∃ a, M = a * pow2 k ∧ M * den = a * (den * pow2 k) := by
  obtain ⟨a, rfl⟩ := h.grid
  exact ⟨a, Nat.mul_comm _ _, by rw [Nat.mul_comm (pow2 k), Nat.mul_assoc, Nat.mul_comm den]⟩

/-- Rounding does not leave the grid downwards. -/
theorem Nearest.le_of_grid (h : Nearest num den M k) (hd : 0 < den) {b : Nat}
    (hb : den * (b * pow2 k) ≤ num * scale) : b * pow2 k ≤ M := by
  obtain ⟨a, ha, hM⟩ := h.exists_units
  have hbelow := h.below
  have hpos : 0 < den * pow2 k := Nat.mul_pos hd (pow2_pos k)
  have hleft : den * (b * pow2 k) = b * (den * pow2 k) := Nat.mul_left_comm den b _
  rw [hM] at hbelow
  rw [hleft] at hb
  have hlt : b * (den * pow2 k) < (a + 1) * (den * pow2 k) := by
    rw [Nat.add_one_mul]
    omega
  have hle : b ≤ a := Nat.le_of_lt_succ (Nat.lt_of_mul_lt_mul_right hlt)
  rw [ha]
  exact Nat.mul_le_mul_right _ hle

/-- Nor upwards. -/
theorem Nearest.ge_of_grid (h : Nearest num den M k) (hd : 0 < den) {b : Nat}
    (hb : num * scale ≤ den * (b * pow2 k)) : M ≤ b * pow2 k := by
  obtain ⟨a, ha, hM⟩ := h.exists_units
  have habove := h.above
  have hpos : 0 < den * pow2 k := Nat.mul_pos hd (pow2_pos k)
  have hleft : den * (b * pow2 k) = b * (den * pow2 k) := Nat.mul_left_comm den b _
  rw [hM] at habove
  rw [hleft] at hb
  have hlt : a * (den * pow2 k) < (b + 1) * (den * pow2 k) := by
    rw [Nat.add_one_mul]
    omega
  have hle : a ≤ b := Nat.le_of_lt_succ (Nat.lt_of_mul_lt_mul_right hlt)
  rw [ha]
  exact Nat.mul_le_mul_right _ hle

/-- A quotient on the grid is not rounded. -/
theorem Nearest.eq_of_grid (h : Nearest num den M k) (hd : 0 < den) {c : Nat} (hg : pow2 k ∣ c)
    (hc : num * scale = den * c) : M = c := by
  obtain ⟨b, rfl⟩ := hg
  rw [Nat.mul_comm (pow2 k)] at hc ⊢
  exact Nat.le_antisymm (h.ge_of_grid hd (Nat.le_of_eq hc)) (h.le_of_grid hd (Nat.le_of_eq hc.symm))

/-- Numbers of at most 53 binary digits are not rounded. -/
theorem Nearest.eq_of_small (h : Nearest num den M k) (hd : 0 < den) {c j : Nat}
    (hsmall : c < pow2 53) (hc : num * scale = den * (c * pow2 j)) : M = c * pow2 j := by
  have hunit : k ≤ j := by
    refine h.unit_le ?_
    rw [hc, Nat.add_comm, pow2_add]
    exact Nat.mul_lt_mul_of_pos_left (Nat.mul_lt_mul_of_pos_right hsmall (pow2_pos j)) hd
  exact h.eq_of_grid hd (Nat.dvd_mul_left_of_dvd (pow2_dvd_pow2 hunit) c) hc

/-- Rounding does not go below a power of two. -/
theorem Nearest.pow2_le (h : Nearest num den M k) (hd : 0 < den) {j : Nat}
    (hj : den * pow2 j ≤ num * scale) : pow2 j ≤ M := by
  by_cases hk : k ≤ j
  · obtain ⟨i, rfl⟩ := Nat.exists_eq_add_of_le' hk
    rw [pow2_add] at hj ⊢
    exact h.le_of_grid hd hj
  · have hleast : den * (pow2 52 * pow2 k) ≤ num * scale := by
      rw [← pow2_add, Nat.add_comm]
      exact h.least.resolve_left (by omega)
    have hle := h.le_of_grid hd hleast
    rw [← pow2_add] at hle
    exact Nat.le_trans (pow2_le_pow2 (by omega)) hle

end

/-! ### The largest doubles -/

/-- The least whole number that is rounded to infinity. -/
def limit : Nat := pow2 1024 - pow2 970

theorem limit_mul_scale : limit * scale = (2 * (pow2 53 - 1) + 1) * pow2 2044 := by
  have htop : pow2 1024 = pow2 54 * pow2 970 := by rw [← pow2_add]
  have hscale : pow2 970 * scale = pow2 2044 := by rw [scale, ← pow2_add]
  have hodd : 2 * (pow2 53 - 1) + 1 = pow2 54 - 1 := by decide
  rw [limit, htop, hodd, Nat.sub_mul, Nat.sub_mul, Nat.mul_assoc, hscale, Nat.one_mul]

theorem isFinite_ofParts (negative : Bool) (m u : Nat) :
    (ofParts negative m u).isFinite ↔ u ≤ 2045 := by
  unfold ofParts
  split
  · simp only [isFinite, Bool.false_eq_true, false_iff]
    omega
  · simp only [isFinite, true_iff]
    omega

/-- The largest unit is left only by what is halfway above the largest significand. -/
theorem rounded_eq_carry {num den unit : Nat} (hd : 0 < den)
    (hle : divHalfEven num (den * pow2 (unit + 1)) ≤ pow2 53) :
    divHalfEven num (den * pow2 (unit + 1)) = pow2 53 ↔
      (2 * (pow2 53 - 1) + 1) * (den * pow2 unit) ≤ num := by
  have hdouble : den * pow2 (unit + 1) = 2 * (den * pow2 unit) := by
    rw [pow2_succ, Nat.mul_left_comm]
  have hpos : 0 < den * pow2 (unit + 1) := Nat.mul_pos hd (pow2_pos _)
  have hpow : pow2 53 = (pow2 53 - 1) + 1 := by decide
  have hodd : (pow2 53 - 1) % 2 = 1 := by decide
  generalize pow2 53 - 1 = k at hpow hodd ⊢
  rw [hdouble] at hle hpos ⊢
  rw [hpow] at hle ⊢
  constructor
  · intro hcarry
    have habove := (divHalfEven_near num hpos).1
    rw [hcarry, Nat.mul_left_comm (k + 1), Nat.add_one_mul k] at habove
    rw [Nat.add_one_mul (2 * k), Nat.mul_assoc]
    omega
  · intro h
    refine Nat.le_antisymm hle (succ_le_divHalfEven hpos hodd ?_)
    rw [Nat.mul_left_comm]
    exact Nat.mul_le_mul_left 2 h

section
variable {n den k : Nat}

theorem lt_of_unit_lt (hmost : n < den * pow2 (k + 53)) (hk : k < 2045) :
    n < (2 * (pow2 53 - 1) + 1) * (den * pow2 2044) := by
  have hunit : den * pow2 (k + 53) ≤ pow2 53 * (den * pow2 2044) := by
    rw [Nat.mul_left_comm, ← pow2_add]
    exact Nat.mul_le_mul_left den (pow2_le_pow2 (by omega))
  have hfactor : pow2 53 ≤ 2 * (pow2 53 - 1) + 1 := by decide
  exact Nat.lt_of_lt_of_le hmost (Nat.le_trans hunit (Nat.mul_le_mul_right _ hfactor))

theorem le_of_lt_unit (hleast : den * pow2 (k + 52) ≤ n) (hk : 2045 < k) :
    (2 * (pow2 53 - 1) + 1) * (den * pow2 2044) ≤ n := by
  have hunit : pow2 54 * (den * pow2 2044) ≤ den * pow2 (k + 52) := by
    rw [Nat.mul_left_comm, ← pow2_add]
    exact Nat.mul_le_mul_left den (pow2_le_pow2 (by omega))
  have hfactor : 2 * (pow2 53 - 1) + 1 ≤ pow2 54 := by decide
  exact Nat.le_trans (Nat.mul_le_mul_right _ hfactor) (Nat.le_trans hunit hleast)

end

/-- Quotients below the limit, and no others, are rounded to finite doubles. -/
theorem isFinite_ofRatio {negative : Bool} {num den : Nat} (hd : 0 < den) :
    (ofRatio negative num den).isFinite ↔ num < limit * den := by
  have hscaled : limit * den * scale = (2 * (pow2 53 - 1) + 1) * (den * pow2 2044) := by
    rw [Nat.mul_right_comm, limit_mul_scale, Nat.mul_assoc, Nat.mul_comm (pow2 2044)]
  have hmost := lt_unitOf num hd
  have hleast := unitOf_le num hd
  have hle := rounded_le num hd
  rw [ofRatio_eq, ← Nat.mul_lt_mul_right scale_pos, hscaled]
  generalize num * scale = n at *
  generalize unitOf num den = k at *
  rcases Nat.lt_trichotomy k 2045 with hsmall | rfl | hlarge
  · have hless := lt_of_unit_lt hmost hsmall
    simp only [hless, iff_true]
    split
    · exact (isFinite_ofParts _ _ _).2 hsmall
    · exact (isFinite_ofParts _ _ _).2 (Nat.le_of_lt hsmall)
  · have hcarry := rounded_eq_carry hd hle
    split
    · rename_i h
      rw [isFinite_ofParts, ← Nat.not_le, ← hcarry]
      simp [h]
    · rename_i h
      rw [isFinite_ofParts, ← Nat.not_le, ← hcarry]
      simp [h]
  · have hmore := le_of_lt_unit (hleast.resolve_left (by omega)) hlarge
    refine iff_of_false ?_ (Nat.not_lt.2 hmore)
    split
    · rw [isFinite_ofParts]
      omega
    · rw [isFinite_ofParts]
      omega

end Binary64
end CheckedActions
