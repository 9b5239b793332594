import CheckedActions.Number.Layout
import CheckedActions.Proofs.JsonTexts

/-!
Decimal digits: what digits write, that the digits of a number have no zeros in front, that a
decimal with zeros behind its digits is rounded to the same double, and that the shortest decimal of
a double that is not zero is not zero either.
-/

namespace CheckedActions

theorem pow2_pos (n : Nat) : 0 < pow2 n := Nat.two_pow_pos n

theorem pow10_pos (n : Nat) : 0 < pow10 n := Nat.pow_pos (by decide)

theorem pow10_succ (n : Nat) : pow10 (n + 1) = pow10 n * 10 := Nat.pow_succ 10 n

/-! ### Digits -/

theorem natOf_toDigits (n : Nat) : Decimal.natOf (Nat.toDigits 10 n) = n :=
  Nat.ofDigitChars_toDigits (by decide) (by decide)

theorem natOf_snoc (ds : List Char) (c : Char) :
    Decimal.natOf (ds ++ [c]) = 10 * Decimal.natOf ds + (c.toNat - 48) := by
  simp [Decimal.natOf]

theorem natOf_zeros_append (k : Nat) (ds : List Char) :
    Decimal.natOf (List.replicate k '0' ++ ds) = Decimal.natOf ds := by
  induction k with
  | zero => rfl
  | succ k ih =>
    rw [List.replicate_succ, List.cons_append]
    exact ih

theorem natOf_append_zeros (ds : List Char) (k : Nat) :
    Decimal.natOf (ds ++ List.replicate k '0') = Decimal.natOf ds * pow10 k := by
  induction k with
  | zero => simp [pow10]
  | succ k ih =>
    rw [List.replicate_succ', ← List.append_assoc, natOf_snoc, ih, pow10_succ]
    simp only [Char.reduceToNat, Nat.sub_self, Nat.add_zero]
    rw [Nat.mul_comm 10, Nat.mul_assoc]

theorem head?_toDigits {n : Nat} (h : n ≠ 0) : (Nat.toDigits 10 n).head? ≠ some '0' := by
  induction n using Nat.strongRecOn with
  | ind n ih =>
    by_cases hn : n < 10
    · rw [Nat.toDigits_of_lt_base hn]
      have hdigit : ∀ m < 10, m ≠ 0 → [m.digitChar].head? ≠ some '0' := by decide
      exact hdigit n hn h
    · have hne : Nat.toDigits 10 (n / 10) ≠ [] := Nat.toDigits_ne_nil
      obtain ⟨d, ds, hds⟩ := List.exists_cons_of_ne_nil hne
      have hrest := ih (n / 10) (by omega) (by omega)
      rw [hds, List.head?_cons] at hrest
      rw [Nat.toDigits_of_base_le (by decide) (by omega), hds, List.cons_append, List.head?_cons]
      exact hrest

theorem lead_toDigits (n : Nat) :
    (Nat.toDigits 10 n).head? = some '0' → Nat.toDigits 10 n = ['0'] := by
  intro h
  by_cases hn : n = 0
  · rw [hn]
    rfl
  · exact absurd h (head?_toDigits hn)

theorem isDigits_toDigits (n : Nat) : Json.IsDigits (Nat.toDigits 10 n) :=
  ⟨Nat.toDigits_ne_nil, fun _ hc => Nat.isDigit_of_mem_toDigits (by decide) (by decide) hc⟩

theorem isDigit_of_mem_zeros {k : Nat} {c : Char} (h : c ∈ List.replicate k '0') : c.isDigit := by
  rw [(List.mem_replicate.1 h).2]
  rfl

theorem isDigits_zeros_append (k : Nat) {ds : List Char} (h : Json.IsDigits ds) :
    Json.IsDigits (List.replicate k '0' ++ ds) := by
  refine ⟨List.append_ne_nil_of_right_ne_nil _ h.1, fun c hc => ?_⟩
  rcases List.mem_append.1 hc with hc | hc
  · exact isDigit_of_mem_zeros hc
  · exact h.2 c hc

theorem isDigits_append_zeros {ds : List Char} (h : Json.IsDigits ds) (k : Nat) :
    Json.IsDigits (ds ++ List.replicate k '0') := by
  refine ⟨List.append_ne_nil_of_left_ne_nil h.1 _, fun c hc => ?_⟩
  rcases List.mem_append.1 hc with hc | hc
  · exact h.2 c hc
  · exact isDigit_of_mem_zeros hc

/-! ### Numbers padded with zeros -/

theorem toList_zeroPad (width n : Nat) : (zeroPad width (toString n)).toList =
    List.replicate (width - (Nat.toDigits 10 n).length) '0' ++ Nat.toDigits 10 n := by
  have htext : toString n = n.repr := rfl
  rw [zeroPad, htext, Nat.repr_eq_ofList_toDigits, String.toList_append, String.toList_ofList,
    String.length_ofList, String.toList_ofList]

theorem natOf_zeroPad (width n : Nat) : Decimal.natOf (zeroPad width (toString n)).toList = n := by
  rw [toList_zeroPad, natOf_zeros_append, natOf_toDigits]

theorem isDigits_zeroPad (width n : Nat) : Json.IsDigits (zeroPad width (toString n)).toList := by
  rw [toList_zeroPad]
  exact isDigits_zeros_append _ (isDigits_toDigits n)

theorem length_zeroPad {width n : Nat} (hw : 0 < width) (h : n < pow10 width) :
    (zeroPad width (toString n)).toList.length = width := by
  have hle := (Nat.length_toDigits_le_iff (by decide) hw).2 h
  rw [toList_zeroPad, List.length_append, List.length_replicate, Nat.sub_add_cancel hle]

/-! ### Rounding -/

theorem divHalfEven_mul {c : Nat} (hc : 0 < c) (num den : Nat) :
    divHalfEven (num * c) (den * c) = divHalfEven num den := by
  have hquotient : num * c / (den * c) = num / den := Nat.mul_div_mul_right num den hc
  have hrest : num * c % (den * c) = num % den * c := Nat.mul_mod_mul_right c num den
  have hless : 2 * (num % den * c) < den * c ↔ 2 * (num % den) < den := by
    rw [← Nat.mul_assoc]
    exact Nat.mul_lt_mul_right hc
  have hmore : den * c < 2 * (num % den * c) ↔ den < 2 * (num % den) := by
    rw [← Nat.mul_assoc]
    exact Nat.mul_lt_mul_right hc
  simp only [divHalfEven, hquotient, hrest, hless, hmore]

namespace Binary64

/-- How a quotient is written does not matter to the nearest double. -/
theorem ofRatio_mul {c : Nat} (hc : 0 < c) (negative : Bool) (num den : Nat) :
    ofRatio negative (num * c) (den * c) = ofRatio negative num den := by
  unfold ofRatio
  generalize scale = s
  have hscaled : num * c * s = num * s * c := Nat.mul_right_comm num c s
  have hquotient : num * s * c / (den * c) = num * s / den := Nat.mul_div_mul_right _ den hc
  have hden : ∀ k, den * c * pow2 k = den * pow2 k * c := fun k => Nat.mul_right_comm den c _
  simp only [hscaled, hquotient, hden, divHalfEven_mul hc]

theorem ofDecimal_zero (negative : Bool) (exponent : Int) :
    ofDecimal negative 0 exponent = zero negative := by simp [ofDecimal]

theorem size_mul_pow10 {n : Nat} (hn : n ≠ 0) (k : Nat) :
    (Nat.toDigits 10 (n * pow10 k)).length = (Nat.toDigits 10 n).length + k := by
  induction k with
  | zero => simp [pow10]
  | succ k ih =>
    have hpos : 0 < n * pow10 k := Nat.mul_pos (Nat.pos_of_ne_zero hn) (pow10_pos k)
    have hpow : n * pow10 (k + 1) = n * pow10 k * 10 := by
      rw [pow10_succ, Nat.mul_assoc]
    have hquotient : n * pow10 k * 10 / 10 = n * pow10 k := by omega
    rw [hpow, Nat.toDigits_of_base_le (by decide) (by omega), hquotient, List.length_append, ih]
    rfl

/-- A whole number with zeros behind it and one behind the point is the number it is without. -/
theorem ofDecimal_point_zero (negative : Bool) {n : Nat} (hn : n ≠ 0) (k : Nat) :
    ofDecimal negative (n * pow10 k * pow10 1) (-1) = ofDecimal negative n k := by
  have hne : n * pow10 k ≠ 0 := Nat.mul_ne_zero hn (Nat.ne_of_gt (pow10_pos k))
  have hne' : n * pow10 k * pow10 1 ≠ 0 := Nat.mul_ne_zero hne (Nat.ne_of_gt (pow10_pos 1))
  have hsize := size_mul_pow10 hne 1
  rw [size_mul_pow10 hn k] at hsize
  have hratio := ofRatio_mul (pow10_pos 1) negative (n * pow10 k) 1
  have hexponent : (((Nat.toDigits 10 n).length + k + 1 : Nat) : Int) + -1 =
      (Nat.toDigits 10 n).length + k := by omega
  rw [Nat.one_mul] at hratio
  have hfraction : ¬ (0 : Int) ≤ -1 := by decide
  have hdown : pow10 (-(-1 : Int)).toNat = pow10 1 := rfl
  have hwhole : (0 : Int) ≤ k := Int.natCast_nonneg k
  simp only [ofDecimal, hn, hne', hsize, hexponent, hfraction, hwhole, hdown, hratio, if_false,
    if_true, Int.toNat_natCast]

end Binary64

namespace Shortest

/-! ### The shortest decimal is not zero -/

theorem Interval.not_contains_zero {i : Interval} (h : 0 < i.low) {den : Nat} (hd : 0 < den) :
    i.contains 0 den = false := by
  have hpos : 0 < i.low * den := Nat.mul_pos h hd
  have hle : ¬ i.low * den ≤ 0 := Nat.not_le.2 hpos
  have hlt : ¬ i.low * den < 0 := Nat.not_lt_zero _
  simp [contains, hle]

theorem onGrid_ne_zero {i : Interval} (h : 0 < i.low) {exponent : Int} {d : DecimalDigits}
    (hd : onGrid i exponent = some d) : d.digits ≠ 0 := by
  have hdown := pow10_pos (-exponent).toNat
  unfold onGrid at hd
  simp only at hd
  generalize pow10 (-exponent).toNat = down at hd hdown
  generalize quarter * pow10 exponent.toNat = den at hd
  have hzero := Interval.not_contains_zero h hdown
  generalize i.value * down / den = n at hd
  have hne : i.contains (n * den) down → n ≠ 0 := by
    rintro hn rfl
    rw [Nat.zero_mul, hzero] at hn
    nomatch hn
  split at hd
  · rename_i hbelow _
    cases hd
    have hn := hne hbelow
    simp only
    split
    · exact hn
    · split
      · exact Nat.succ_ne_zero n
      · split
        · exact hn
        · exact Nat.succ_ne_zero n
  · split at hd
    · nomatch hd
    · rename_i hn
      cases hd
      exact hn
  · cases hd
    exact Nat.succ_ne_zero n
  · nomatch hd

theorem quarter_pos : 0 < quarter := Nat.mul_pos (by decide) (pow2_pos 1074)

theorem search_ne_zero {i : Interval} (h : 0 < i.low) (top : Int) (fuel k : Nat)
    (hk : quarter ≤ i.value * pow10 (((k + fuel : Nat) : Int) - top).toNat) :
    (search i top fuel k).digits ≠ 0 := by
  induction fuel generalizing k with
  | zero =>
    exact Nat.ne_of_gt (Nat.div_pos hk quarter_pos)
  | succ fuel ih =>
    rw [search]
    cases hgrid : onGrid i (top - k) with
    | some d => exact onGrid_ne_zero h hgrid
    | none =>
      refine ih (k + 1) ?_
      rwa [show k + 1 + fuel = k + (fuel + 1) by omega]

/-- Behind the leading digit there is room for the digits of a whole number. -/
theorem leading_spec {value : Nat} (hv : 0 < value) :
    quarter ≤ value * pow10 (17 - leading value).toNat := by
  unfold leading
  generalize quarter = q
  split
  · rename_i hle
    exact Nat.le_trans hle (Nat.le_mul_of_pos_right value (pow10_pos _))
  · rename_i hlt
    generalize hr : (q + value - 1) / value = r
    have hsize : r - 1 < pow10 (Nat.toDigits 10 (r - 1)).length :=
      (Nat.length_toDigits_le_iff (by decide) Nat.length_toDigits_pos).1 (Nat.le_refl _)
    have hceil : q ≤ value * r := by
      have hdiv := Nat.div_add_mod (q + value - 1) value
      have hmod := Nat.mod_lt (q + value - 1) hv
      rw [hr] at hdiv
      omega
    have hplaces : (17 - -((Nat.toDigits 10 (r - 1)).length : Int)).toNat =
        (Nat.toDigits 10 (r - 1)).length + 17 := by omega
    have hgrow : pow10 (Nat.toDigits 10 (r - 1)).length ≤
        pow10 ((Nat.toDigits 10 (r - 1)).length + 17) :=
      Nat.pow_le_pow_right (by decide) (by omega)
    rw [hplaces]
    exact Nat.le_trans hceil (Nat.mul_le_mul_left value (by omega))

theorem strip_ne_zero {d : DecimalDigits} (h : d.digits ≠ 0) : d.strip.digits ≠ 0 := by
  have hgo : ∀ fuel d, d.digits ≠ 0 → (DecimalDigits.strip.go fuel d).digits ≠ 0 := by
    intro fuel
    induction fuel with
    | zero => exact fun d h => h
    | succ fuel ih =>
      intro d h
      unfold DecimalDigits.strip.go
      split
      · rename_i hd
        refine ih _ ?_
        simp only
        omega
      · exact h
  exact hgo 20 d h

theorem ofFinite_ne_zero {significand : Nat} (hs : significand ≠ 0) (unit : Nat) :
    (ofFinite significand unit).digits ≠ 0 := by
  have hgap := pow2_pos unit
  have hvalue : (interval significand unit).value = 4 * (significand * pow2 unit) := rfl
  have hmagnitude : pow2 unit ≤ significand * pow2 unit :=
    Nat.le_mul_of_pos_left _ (Nat.pos_of_ne_zero hs)
  have hlow : 0 < (interval significand unit).low := by
    simp only [interval, Binary64.magnitude]
    split <;> omega
  have hpos : 0 < (interval significand unit).value := by omega
  refine strip_ne_zero (search_ne_zero hlow _ 17 0 ?_)
  exact leading_spec hpos

end Shortest

end CheckedActions
