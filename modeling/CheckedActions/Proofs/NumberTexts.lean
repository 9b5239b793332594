import CheckedActions.Proofs.Numerals

/-!
Numbers in JSON texts. Whole numbers, and finite doubles in every layout in which a whole number
ends in `.0`, are written as the grammar asks. The layout a double is written in does not matter to
what its text says.
-/

namespace CheckedActions
namespace Json

/-- The text of a whole number. -/
def NumberText.ofInt (n : Int) : NumberText where
  negative := n < 0
  whole := Nat.toDigits 10 n.natAbs
  places? := none
  exponent? := none
  whole_ok := isDigits_toDigits n.natAbs
  lead_ok := lead_toDigits n.natAbs
  places_ok := nofun

theorem NumberText.chars_ofInt (n : Int) : (ofInt n).chars = (toString n).toList := by
  have htext : toString n = n.repr := rfl
  rw [htext, Int.repr_eq_if]
  by_cases hn : 0 ≤ n
  · have habs : n.toNat = n.natAbs := by omega
    simp [chars, ofInt, fraction, exponent, hn, Nat.repr_eq_ofList_toDigits, habs]
  · have habs : (-n).toNat = n.natAbs := by omega
    have hneg : n < 0 := by omega
    simp [chars, ofInt, fraction, exponent, hn, hneg, Nat.repr_eq_ofList_toDigits, habs]

theorem NumberText.value_ofInt (n : Int) : (ofInt n).value = .int n := by
  simp only [value, ofInt, natOf_toDigits]
  by_cases hn : n < 0
  · simp only [hn, decide_true, if_true]
    congr 1
    omega
  · simp only [hn, decide_false, Bool.false_eq_true, if_false]
    congr 1
    omega

/-- The exponent of the given number of digits or more. -/
def ExponentText.ofInt (n : Int) (width : Nat) : ExponentText where
  mark := 'e'
  sign := if n < 0 then ['-'] else ['+']
  digits := List.replicate (width - (Nat.toDigits 10 n.natAbs).length) '0' ++
    Nat.toDigits 10 n.natAbs
  mark_ok := .inl rfl
  sign_ok := by split <;> simp
  digits_ok := isDigits_zeros_append _ (isDigits_toDigits n.natAbs)

theorem ExponentText.value_ofInt (n : Int) (width : Nat) : (ofInt n width).value = n := by
  simp only [value, ofInt, natOf_zeros_append, natOf_toDigits]
  by_cases hn : n < 0
  · simp only [hn, if_true]
    omega
  · have hplus : ['+'] ≠ ['-'] := by decide
    simp only [hn, if_false, hplus]
    omega

theorem ExponentText.chars_ofInt (n : Int) (width : Nat) :
    (ofInt n width).chars =
      'e' :: ((if n < 0 then "-" else "+").toList ++
        (zeroPad width (toString n.natAbs)).toList) := by
  have htext : toString n.natAbs = String.ofList (Nat.toDigits 10 n.natAbs) :=
    Nat.repr_eq_ofList_toDigits
  rw [htext]
  by_cases hn : n < 0
  · simp [chars, ofInt, zeroPad, hn]
  · simp [chars, ofInt, zeroPad, hn]

/-! ### Doubles -/

/-- Behind its sign a number has the given characters. It writes the double nearest to a decimal,
and is no whole number. -/
def WritesDecimal (negative : Bool) (cs : List Char) (d : DecimalDigits) : Prop :=
  ∃ t : NumberText, t.chars = (if negative then ['-'] else []) ++ cs ∧ ¬ t.IsWhole ∧
    t.value = .float (Binary64.ofDecimal negative d.digits d.exponent)

/-- Digits with a point among them. -/
theorem writesDecimal_positional {negative : Bool} {d : DecimalDigits} {whole places : List Char}
    (hw : IsDigits whole) (hl : whole.head? = some '0' → whole = ['0']) (hp : IsDigits places)
    (hd : Binary64.ofDecimal negative (Decimal.natOf (whole ++ places)) (-(places.length : Int)) =
      Binary64.ofDecimal negative d.digits d.exponent) :
    WritesDecimal negative (whole ++ '.' :: places) d := by
  let t : NumberText :=
    { negative, whole
      places? := some places
      exponent? := none
      whole_ok := hw
      lead_ok := hl
      places_ok := by
        rintro _ ⟨⟩
        exact hp }
  refine ⟨t, ?_, ?_, ?_⟩
  · simp [t, NumberText.chars, NumberText.fraction, NumberText.exponent]
  · rintro ⟨hnone, -⟩
    cases hnone
  · simp only [t, NumberText.value, Option.getD_some, Int.zero_sub, hd]

/-- One digit, perhaps with a fraction, and an exponent. -/
theorem writesDecimal_scientific (negative : Bool) {d : DecimalDigits} {c : Char}
    {rest : List Char} (hd : Nat.toDigits 10 d.digits = c :: rest) (width : Nat) :
    WritesDecimal negative
      ((if rest = [] then [c] else c :: '.' :: rest) ++
        (ExponentText.ofInt (rest.length + d.exponent) width).chars) d := by
  have hdigits := isDigits_toDigits d.digits
  rw [hd] at hdigits
  have hc : c.isDigit := hdigits.2 c List.mem_cons_self
  have hvalue : Decimal.natOf (c :: rest) = d.digits := by rw [← hd, natOf_toDigits]
  have hscale : (rest.length + d.exponent : Int) - rest.length = d.exponent := by omega
  let t : NumberText :=
    { negative
      whole := [c]
      places? := if rest = [] then none else some rest
      exponent? := some (.ofInt (rest.length + d.exponent) width)
      whole_ok := ⟨List.cons_ne_nil c [], by simpa using hc⟩
      lead_ok := by simp
      places_ok := by
        intro places hplaces
        split at hplaces
        · cases hplaces
        · rename_i hne
          cases hplaces
          exact ⟨hne, fun b hb => hdigits.2 b (List.mem_cons_of_mem c hb)⟩ }
  refine ⟨t, ?_, ?_, ?_⟩
  · by_cases hr : rest = []
    · simp [t, NumberText.chars, NumberText.fraction, NumberText.exponent, hr]
    · simp [t, NumberText.chars, NumberText.fraction, NumberText.exponent, hr]
  · rintro ⟨-, hnone⟩
    cases hnone
  · by_cases hr : rest = []
    · subst hr
      simp only [List.length_nil, Int.natCast_zero, Int.zero_add] at hscale
      simp [t, NumberText.value, ExponentText.value_ofInt, hvalue]
    · simp [t, NumberText.value, ExponentText.value_ofInt, hr, hvalue, hscale]

/-- A decimal that is not zero is written in every layout that ends whole numbers in `.0`. -/
theorem writesDecimal_write {l : FloatLayout} (hl : l.pointZero) {d : DecimalDigits}
    (hd : d.digits ≠ 0) (negative : Bool) : WritesDecimal negative (d.write l).toList d := by
  have hne := Nat.toDigits_ne_nil (n := d.digits) (b := 10)
  have hds := isDigits_toDigits d.digits
  have hlead := head?_toDigits hd
  have hvalue := natOf_toDigits d.digits
  unfold DecimalDigits.write
  generalize hdigits : Nat.toDigits 10 d.digits = ds at hne hds hlead hvalue
  simp only
  split
  · split
    · -- All digits stand behind the point.
      rename_i hsmall
      generalize hk : (-((ds.length : Int) + d.exponent)).toNat = k
      have htext : ("0." ++ zeros k ++ String.ofList ds).toList =
          ['0'] ++ '.' :: (List.replicate k '0' ++ ds) := by simp [zeros]
      have hnumber : Decimal.natOf (['0'] ++ (List.replicate k '0' ++ ds)) = d.digits := by
        have hzeros := natOf_zeros_append (k + 1) ds
        rwa [hvalue, List.replicate_succ, List.cons_append] at hzeros
      have hscale : -((List.replicate k '0' ++ ds).length : Int) = d.exponent := by
        simp only [List.length_append, List.length_replicate]
        omega
      rw [htext]
      refine writesDecimal_positional (isDigits_toDigits 0) (fun _ => rfl)
        (isDigits_zeros_append k hds) ?_
      rw [hnumber, hscale]
    · split
      · -- All digits stand in front of the point, and zeros behind them.
        rename_i hlarge
        generalize hk : d.exponent.toNat = k
        have htext : (String.ofList ds ++ zeros k ++ ".0").toList =
            (ds ++ List.replicate k '0') ++ '.' :: ['0'] := by simp [zeros]
        have hnumber : Decimal.natOf (ds ++ List.replicate k '0' ++ ['0']) =
            d.digits * pow10 k * pow10 1 := by
          rw [show ['0'] = List.replicate 1 '0' from rfl, natOf_append_zeros, natOf_append_zeros,
            hvalue]
        have hscale : (k : Int) = d.exponent := by omega
        rw [htext]
        refine writesDecimal_positional (isDigits_append_zeros hds k) (fun hzero => ?_)
          (isDigits_toDigits 0) ?_
        · obtain ⟨c, rest, rfl⟩ := List.exists_cons_of_ne_nil hne
          exact absurd hzero hlead
        · rw [hnumber, ← hscale]
          exact Binary64.ofDecimal_point_zero negative hd k
      · -- The point stands between two digits.
        rename_i hpositive hsmall
        generalize hp : ((ds.length : Int) + d.exponent).toNat = p
        have hlow : 0 < p := by omega
        have hhigh : p < ds.length := by omega
        have htext : (String.ofList (ds.take p) ++ "." ++ String.ofList (ds.drop p)).toList =
            ds.take p ++ '.' :: ds.drop p := by simp
        have hscale : -((ds.drop p).length : Int) = d.exponent := by
          rw [List.length_drop]
          omega
        rw [htext]
        refine writesDecimal_positional ⟨?_, fun c hc => hds.2 c (List.mem_of_mem_take hc)⟩
          (fun hzero => ?_) ⟨?_, fun c hc => hds.2 c (List.mem_of_mem_drop hc)⟩ ?_
        · intro hnil
          have hlength := congrArg List.length hnil
          rw [List.length_take, List.length_nil] at hlength
          omega
        · rw [List.head?_take, if_neg (by omega)] at hzero
          exact absurd hzero hlead
        · intro hnil
          have hlength := congrArg List.length hnil
          rw [List.length_drop, List.length_nil] at hlength
          omega
        · rw [List.take_append_drop, hvalue, hscale]
  · obtain ⟨c, rest, rfl⟩ := List.exists_cons_of_ne_nil hne
    have htop : ((c :: rest).length : Int) + d.exponent - 1 = rest.length + d.exponent := by
      rw [List.length_cons]
      omega
    have hscientific := writesDecimal_scientific negative hdigits l.exponentDigits
    rw [ExponentText.chars_ofInt] at hscientific
    rw [htop]
    cases rest with
    | nil => simpa using hscientific
    | cons b rest => simpa using hscientific

/-- What the shortest text of a double reads back as. -/
def reread : Binary64 → Binary64
  | .finite negative m u =>
    if m = 0 then .zero negative
    else .ofDecimal negative (Shortest.ofFinite m u).digits (Shortest.ofFinite m u).exponent
  | x => x

/-- A finite double is written in every such layout, and read back as the same double. -/
theorem exists_numberText {l : FloatLayout} (hl : l.pointZero) {x : Binary64} (hx : x.isFinite) :
    ∃ t : NumberText, t.chars = (x.write l).toList ∧ ¬ t.IsWhole ∧ t.value = .float (reread x) := by
  cases x with
  | nan => nomatch hx
  | infinity => nomatch hx
  | finite negative m u =>
    have hsign : (if negative then "-" else "").toList = if negative then ['-'] else [] := by
      split <;> rfl
    by_cases hm : m = 0
    · have hzero : WritesDecimal negative ("0.0".toList) ⟨0, 0⟩ :=
        writesDecimal_positional (isDigits_toDigits 0) (fun _ => rfl) (isDigits_toDigits 0)
          ((Binary64.ofDecimal_zero negative _).trans (Binary64.ofDecimal_zero negative 0).symm)
      obtain ⟨t, hchars, hwhole, hvalue⟩ := hzero
      refine ⟨t, ?_, hwhole, ?_⟩
      · rw [hchars, Binary64.write, if_pos hm, if_pos hl, String.toList_append, hsign]
      · rw [hvalue, reread, if_pos hm, Binary64.ofDecimal_zero]
    · obtain ⟨t, hchars, hwhole, hvalue⟩ :=
        writesDecimal_write hl (Shortest.ofFinite_ne_zero hm u) negative
      refine ⟨t, ?_, hwhole, ?_⟩
      · rw [hchars, Binary64.write, if_neg hm, String.toList_append, hsign]
      · rw [hvalue, reread, if_neg hm]

end Json
end CheckedActions
