import CheckedActions.Json.Document
import CheckedActions.Proofs.JsonTexts

/-!
Strings in JSON texts. Every way in which the styles escape a character is one that the grammar has,
and stands for that character. What lies beyond 16 bits becomes a surrogate pair.
-/

namespace CheckedActions
namespace Json

theorem Spells.append {cs ds : List Char} {us vs : List CodeUnit} (h : Spells cs us)
    (h' : Spells ds vs) : Spells (cs ++ ds) (us ++ vs) := by
  induction h with
  | nil => exact h'
  | plain hc hq hb _ ih => exact .plain hc hq hb ih
  | short he _ ih => exact .short he ih
  | hex hn _ ih => exact .hex hn ih

/-- The characters stand for one character, whatever follows them. -/
def EscapesTo (cs : List Char) (c : Char) : Prop :=
  ∃ us, Spells cs us ∧ ∀ more, ofUnits (us ++ more) = c :: ofUnits more ∧
    (Paired more → Paired (us ++ more))

theorem stringText_quote {escape : Char → List Char} (h : ∀ c, EscapesTo (escape c) c)
    (l : Latitude) (s : String) : StringText l ('"' :: s.toList.flatMap escape ++ ['"']) s := by
  have hbody : ∀ cs : List Char,
      ∃ us, Spells (cs.flatMap escape) us ∧ Paired us ∧ ofUnits us = cs := by
    intro cs
    induction cs with
    | nil => exact ⟨[], .nil, trivial, rfl⟩
    | cons c cs ih =>
      obtain ⟨us, hus, hmore⟩ := h c
      obtain ⟨vs, hvs, hpaired, hcs⟩ := ih
      obtain ⟨hc, hpair⟩ := hmore vs
      refine ⟨us ++ vs, ?_, hpair hpaired, by rw [hc, hcs]⟩
      rw [List.flatMap_cons]
      exact hus.append hvs
  obtain ⟨us, hus, hpaired, hs⟩ := hbody s.toList
  exact ⟨_, us, hus, .inr hpaired, rfl, by rw [hs, String.ofList_toList]⟩

/-! ### Units -/

theorem hexValue?_hexDigit {n : Nat} (h : n < 16) : hexValue? (hexDigit n) = some n := by
  have hall : ∀ n < 16, hexValue? (hexDigit n) = some n := by decide
  exact hall n h

theorem fourHex?_hexDigits {n : Nat} (h : n < 0x10000) : fourHex? (hexDigits 4 n) = some n := by
  have hdigits : hexDigits 4 n = [hexDigit (n / 16 / 16 / 16 % 16), hexDigit (n / 16 / 16 % 16),
      hexDigit (n / 16 % 16), hexDigit (n % 16)] := rfl
  have hlow : ∀ m, hexValue? (hexDigit (m % 16)) = some (m % 16) := fun m =>
    hexValue?_hexDigit (Nat.mod_lt m (by decide))
  rw [hdigits]
  simp only [fourHex?, hlow, bind, Option.bind, Option.some.injEq]
  omega

theorem spells_unitEscape {n : Nat} (h : n < 0x10000) : Spells (unitEscape n) [.unit n] :=
  .hex (fourHex?_hexDigits h) .nil

/-- A character of 16 bits is no surrogate. -/
theorem charOf_toNat (c : Char) :
    (isHighSurrogate c.toNat = false ∧ isLowSurrogate c.toNat = false) ∧ charOf c.toNat = c := by
  have hvalid : c.toNat < 0xd800 ∨ 0xdfff < c.toNat ∧ c.toNat < 0x110000 := c.valid
  have hhigh : isHighSurrogate c.toNat = false := by
    simp only [isHighSurrogate, Bool.and_eq_false_iff, decide_eq_false_iff_not]
    omega
  have hlow : isLowSurrogate c.toNat = false := by
    simp only [isLowSurrogate, Bool.and_eq_false_iff, decide_eq_false_iff_not]
    omega
  refine ⟨⟨hhigh, hlow⟩, ?_⟩
  simp [charOf, hhigh, hlow]

theorem ofUnits_unit {n : Nat} (h : isHighSurrogate n = false) (us : List CodeUnit) :
    ofUnits (.unit n :: us) = charOf n :: ofUnits us := by
  cases us with
  | nil => simp [ofUnits]
  | cons u us =>
    cases u with
    | char c => simp [ofUnits]
    | unit m => simp [ofUnits, h]

theorem paired_unit {n : Nat} (h : isHighSurrogate n = false ∧ isLowSurrogate n = false)
    {us : List CodeUnit} (hus : Paired us) : Paired (.unit n :: us) := by
  cases us with
  | nil => simp [Paired, h]
  | cons u us =>
    cases u with
    | char c => simpa [Paired, h] using hus
    | unit m => simpa [Paired, h] using hus

theorem escapesTo_unit {c : Char} (h : c.toNat < 0x10000) :
    EscapesTo (unitEscape c.toNat) c := by
  obtain ⟨hunit, hchar⟩ := charOf_toNat c
  refine ⟨[.unit c.toNat], spells_unitEscape h, fun more => ⟨?_, paired_unit hunit⟩⟩
  rw [List.singleton_append, ofUnits_unit hunit.1, hchar]

theorem escapesTo_pair {c : Char} (h : 0x10000 ≤ c.toNat) :
    EscapesTo (unitEscape (0xd800 + (c.toNat - 0x10000) / 0x400) ++
      unitEscape (0xdc00 + (c.toNat - 0x10000) % 0x400)) c := by
  have hvalid : c.toNat < 0xd800 ∨ 0xdfff < c.toNat ∧ c.toNat < 0x110000 := c.valid
  generalize hm : c.toNat - 0x10000 = m
  have hbound : m < 0x100000 := by omega
  have hhigh : isHighSurrogate (0xd800 + m / 0x400) := by
    simp only [isHighSurrogate, Bool.and_eq_true, decide_eq_true_eq]
    omega
  have hlow : isLowSurrogate (0xdc00 + m % 0x400) := by
    simp only [isLowSurrogate, Bool.and_eq_true, decide_eq_true_eq]
    omega
  have hwhole : 0x10000 + (0xd800 + m / 0x400 - 0xd800) * 0x400 + (0xdc00 + m % 0x400 - 0xdc00) =
      c.toNat := by omega
  refine ⟨[.unit (0xd800 + m / 0x400), .unit (0xdc00 + m % 0x400)],
    (spells_unitEscape (by omega)).append (spells_unitEscape (by omega)), fun more => ⟨?_, ?_⟩⟩
  · rw [List.cons_append, List.singleton_append, ofUnits, if_pos ⟨hhigh, hlow⟩, hwhole,
      Char.ofNat_toNat]
  · intro hpaired
    rwa [List.cons_append, List.singleton_append, Paired, if_pos ⟨hhigh, hlow⟩]

/-! ### Styles -/

theorem shortEscape?_eq_some {c : Char} {e : List Char} (h : shortEscape? c = some e) :
    ∃ x, (x, c) ∈ shortEscapes ∧ e = ['\\', x] := by
  unfold shortEscape? at h
  repeat' split at h
  all_goals cases h
  all_goals
    rename_i hc
    subst hc
    exact ⟨_, by decide, rfl⟩

theorem shortEscape?_eq_none {c : Char} (h : shortEscape? c = none) : c ≠ '"' ∧ c ≠ '\\' := by
  constructor <;> rintro rfl <;> nomatch h

theorem escapesTo_short {c : Char} {e : List Char} (h : shortEscape? c = some e) :
    EscapesTo e c := by
  obtain ⟨x, hx, rfl⟩ := shortEscape?_eq_some h
  exact ⟨[.char c], .short hx .nil, fun more => ⟨rfl, id⟩⟩

theorem escapesTo_plain {c : Char} (h : shortEscape? c = none) (hc : 32 ≤ c.toNat) :
    EscapesTo [c] c := by
  obtain ⟨hquote, hslash⟩ := shortEscape?_eq_none h
  exact ⟨[.char c], .plain hc hquote hslash .nil, fun more => ⟨rfl, id⟩⟩

theorem escapesTo_escapeControls (c : Char) : EscapesTo (escapeControls c) c := by
  unfold escapeControls
  cases hs : shortEscape? c with
  | some e => exact escapesTo_short hs
  | none =>
    simp only
    split
    · rename_i hc
      exact escapesTo_unit (by omega)
    · rename_i hc
      exact escapesTo_plain hs (by omega)

theorem escapesTo_escapeToAscii (c : Char) : EscapesTo (escapeToAscii c) c := by
  unfold escapeToAscii
  cases hs : shortEscape? c with
  | some e => exact escapesTo_short hs
  | none =>
    simp only
    split
    · rename_i hc
      exact escapesTo_plain hs hc.1
    · split
      · rename_i hc
        exact escapesTo_unit hc
      · rename_i hc
        exact escapesTo_pair (Nat.not_lt.1 hc)

end Json
end CheckedActions
