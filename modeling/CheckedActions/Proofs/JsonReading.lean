import CheckedActions.Proofs.JsonTexts

/-!
The reader reads every JSON text, as the value that the text writes, and so it does with the words
that it knows beyond those of the grammar. Only whole numbers of more digits than the limit are left
out, which the reader refuses.
-/

namespace CheckedActions
namespace Json

/-! ### What the scanners take

A scanner takes as much as it can. So what a text goes on with must not be taken for more of it.
-/

/-- The text does not go on with a digit. -/
def NoDigit (cs : List Char) : Prop := ∀ c ∈ cs.head?, c.isDigit = false

/-- The text does not go on as a number does. -/
def EndsNumber (cs : List Char) : Prop :=
  ∀ c ∈ cs.head?, c.isDigit = false ∧ c ≠ '.' ∧ c ≠ 'e' ∧ c ≠ 'E'

theorem EndsNumber.noDigit {cs : List Char} (h : EndsNumber cs) : NoDigit cs :=
  fun c hc => (h c hc).1

theorem takeWhile_digits {ds rest : List Char} (hd : ∀ c ∈ ds, c.isDigit) (hr : NoDigit rest) :
    (ds ++ rest).takeWhile Char.isDigit = ds := by
  rw [List.takeWhile_append_of_pos hd]
  cases rest with
  | nil => simp
  | cons c rest =>
    have hc : c.isDigit = false := hr c rfl
    simp [hc]

theorem dropWhile_digits {ds rest : List Char} (hd : ∀ c ∈ ds, c.isDigit) (hr : NoDigit rest) :
    (ds ++ rest).dropWhile Char.isDigit = rest := by
  rw [List.dropWhile_append_of_pos hd]
  cases rest with
  | nil => rfl
  | cons c rest =>
    have hc : c.isDigit = false := hr c rfl
    simp [hc]

/-- Blanks are skipped up to what is none. -/
theorem skipSpace_blank {ws : List Char} (hw : Blank ws) {c : Char} (hc : isSpace c = false)
    (cs : List Char) : skipSpace (ws ++ c :: cs) = c :: cs := by
  have hspaces : ∀ b ∈ ws, isSpace b := by
    intro b hb
    rcases hw b hb with rfl | rfl | rfl | rfl <;> rfl
  rw [skipSpace, List.dropWhile_append_of_pos hspaces]
  simp [hc]

/-- A blank text, or one that is blank up to its end, is skipped altogether. -/
theorem skipSpace_blank_nil {ws : List Char} (hw : Blank ws) : skipSpace ws = [] := by
  have hspaces : ∀ b ∈ ws, isSpace b := by
    intro b hb
    rcases hw b hb with rfl | rfl | rfl | rfl <;> rfl
  rw [skipSpace, ← List.append_nil ws, List.dropWhile_append_of_pos hspaces]
  rfl

/-! ### Numbers are read -/

theorem digit_ne {c : Char} (h : c.isDigit) :
    c ≠ '-' ∧ c ≠ '+' ∧ c ≠ '.' ∧ c ≠ 'e' ∧ c ≠ 'E' ∧ c ≠ '"' := by
  refine ⟨?_, ?_, ?_, ?_, ?_, ?_⟩ <;> rintro rfl <;> revert h <;> decide

theorem exponent?_eq_none {cs : List Char} (h : EndsNumber cs) : exponent? cs = none := by
  cases cs with
  | nil => rfl
  | cons c cs =>
    obtain ⟨-, -, he, hE⟩ := h c rfl
    simp [exponent?, he, hE]

theorem ExponentText.read (e : ExponentText) {rest : List Char} (hr : NoDigit rest) :
    exponent? (e.chars ++ rest) = some (e.value, rest) := by
  obtain ⟨hne, hd⟩ := e.digits_ok
  have htake := takeWhile_digits hd hr
  have hdrop := dropWhile_digits hd hr
  have hempty : e.digits.isEmpty = false := by simpa using hne
  rcases e.sign_ok with hs | hs | hs
  · -- Without a sign the first digit is looked at, which is none.
    obtain ⟨d, ds, hds⟩ := List.exists_cons_of_ne_nil hne
    obtain ⟨hminus, hplus, -⟩ := digit_ne (hd d (hds ▸ List.mem_cons_self))
    rw [hds] at htake hdrop hempty
    simp only [List.cons_append] at htake hdrop
    simp [exponent?, chars, value, hs, e.mark_ok, hds, hminus, hplus, htake, hdrop]
  · simp [exponent?, chars, value, hs, e.mark_ok, htake, hdrop, hempty]
  · simp [exponent?, chars, value, hs, e.mark_ok, htake, hdrop, hempty]

namespace NumberText

variable (t : NumberText)

theorem noDigit_exponent {rest : List Char} (hr : EndsNumber rest) :
    NoDigit (t.exponent ++ rest) := by
  unfold exponent
  split
  · rename_i e _
    intro c hc
    cases hc
    rcases e.mark_ok with hm | hm <;> rw [hm] <;> rfl
  · exact hr.noDigit

theorem noDigit_fraction {rest : List Char} (hr : EndsNumber rest) :
    NoDigit (t.fraction ++ (t.exponent ++ rest)) := by
  unfold fraction
  split
  · rintro c ⟨⟩
    rfl
  · exact t.noDigit_exponent hr

theorem read_exponent {rest : List Char} (hr : EndsNumber rest) :
    Json.exponent? (t.exponent ++ rest) = t.exponent?.map fun e => (e.value, rest) := by
  unfold exponent
  cases t.exponent? with
  | none => exact exponent?_eq_none hr
  | some e => exact e.read hr.noDigit

theorem read_fraction {rest : List Char} (hr : EndsNumber rest) :
    fractionDigits (t.fraction ++ (t.exponent ++ rest)) = t.places?.getD [] := by
  unfold fraction
  cases hp : t.places? with
  | none =>
    have hpoint : ∀ c ∈ (t.exponent ++ rest).head?, c ≠ '.' := by
      unfold exponent
      cases t.exponent? with
      | none => exact fun c hc => (hr c hc).2.1
      | some e =>
        rintro c ⟨⟩
        rcases e.mark_ok with hm | hm <;> rw [hm] <;> decide
    unfold fractionDigits
    split
    · rename_i cs hcs
      rw [List.nil_append] at hcs
      exact absurd rfl (hpoint '.' (by rw [hcs]; rfl))
    · rfl
  | some places =>
    exact takeWhile_digits (t.places_ok places hp).2 (t.noDigit_exponent hr)

theorem read_whole {after : List Char} (ha : NoDigit after) :
    wholeDigits (t.whole ++ after) = t.whole := by
  obtain ⟨hne, hd⟩ := t.whole_ok
  obtain ⟨d, ds, hds⟩ := List.exists_cons_of_ne_nil hne
  have htake := takeWhile_digits hd ha
  unfold wholeDigits
  split
  · rename_i cs hcs
    have hzero : t.whole.head? = some '0' := by
      rw [hds, List.cons_append, List.cons.injEq] at hcs
      rw [hds, hcs.1, List.head?_cons]
    exact (t.lead_ok hzero).symm
  · exact htake

theorem read_sign (after : List Char) :
    splitSign ((if t.negative then ['-'] else []) ++ t.whole ++ after) =
      (t.negative, t.whole ++ after) := by
  obtain ⟨hne, hd⟩ := t.whole_ok
  obtain ⟨d, ds, hds⟩ := List.exists_cons_of_ne_nil hne
  have hminus := (digit_ne (hd d (hds ▸ List.mem_cons_self))).1
  cases t.negative with
  | true => rfl
  | false => simp [splitSign, hds, hminus]

/-- A number is read to its end. -/
theorem read {rest : List Char} (hr : EndsNumber rest)
    (hs : t.IsWhole → t.whole.length ≤ digitLimit) :
    readNumber (t.chars ++ rest) = .ok (t.value, rest) := by
  let after := t.fraction ++ (t.exponent ++ rest)
  have hchars : t.chars ++ rest = (if t.negative then ['-'] else []) ++ t.whole ++ after := by
    simp [chars, after]
  have hsign := t.read_sign after
  have hwhole : wholeDigits (t.whole ++ after) = t.whole := t.read_whole (t.noDigit_fraction hr)
  have hfraction : fractionDigits after = t.places?.getD [] := t.read_fraction hr
  have hafter : (if (t.places?.getD []).isEmpty then after
      else after.drop ((t.places?.getD []).length + 1)) = t.exponent ++ rest := by
    cases hp : t.places? with
    | none => simp [after, fraction, hp]
    | some places =>
      have hplaces : places.isEmpty = false := by simpa using (t.places_ok places hp).1
      simp [after, fraction, hp, hplaces]
  have hempty : t.whole.isEmpty = false := by simpa using t.whole_ok.1
  have hdrop : (t.whole ++ after).drop t.whole.length = after := List.drop_left
  rw [hchars, readNumber]
  simp only [hsign, hwhole, hempty, hdrop, hfraction, hafter, t.read_exponent hr]
  cases he : t.exponent? with
  | some e =>
    cases hp : t.places? with
    | none => simp [value, he, hp]
    | some places => simp [value, he, hp]
  | none =>
    cases hp : t.places? with
    | none =>
      have hshort : ¬ digitLimit < t.whole.length := Nat.not_lt.2 (hs ⟨hp, he⟩)
      simp [value, he, hp, hshort, after, fraction, exponent]
    | some places =>
      have hplaces : places.isEmpty = false := by simpa using (t.places_ok places hp).1
      simp [value, he, hp, hplaces, exponent]

end NumberText

/-! ### Strings are read -/

theorem fourHex?_append (a b c d : Char) (cs : List Char) :
    fourHex? (a :: b :: c :: d :: cs) = fourHex? [a, b, c, d] := rfl

theorem simpleEscape?_of_mem {e c : Char} (h : (e, c) ∈ shortEscapes) :
    e ≠ 'u' ∧ simpleEscape? e = some c := by
  revert h
  simp only [shortEscapes, List.mem_cons, Prod.mk.injEq, List.not_mem_nil, or_false]
  rintro (⟨rfl, rfl⟩ | ⟨rfl, rfl⟩ | ⟨rfl, rfl⟩ | ⟨rfl, rfl⟩ | ⟨rfl, rfl⟩ | ⟨rfl, rfl⟩ | ⟨rfl, rfl⟩ |
    ⟨rfl, rfl⟩) <;> exact ⟨by decide, rfl⟩

/-- An escape of a unit that no other such escape follows. -/
theorem unicodeEscape_single {a b c d : Char} {n : Nat} (hn : fourHex? [a, b, c, d] = some n)
    {r : Char} {rest : List Char} (hr : ∀ more, r :: rest ≠ '\\' :: 'u' :: more) :
    unicodeEscape ('u' :: a :: b :: c :: d :: r :: rest) = .ok (charOf n, r :: rest) := by
  simp only [unicodeEscape, List.drop_succ_cons, List.drop_zero]
  rw [fourHex?_append, hn]

/-- Two escapes of units in a row. -/
theorem unicodeEscape_double {a b c d a' b' c' d' : Char} {n m : Nat}
    (hn : fourHex? [a, b, c, d] = some n) (hm : fourHex? [a', b', c', d'] = some m)
    {rest : List Char} (hr : rest ≠ []) :
    unicodeEscape ('u' :: a :: b :: c :: d :: '\\' :: 'u' :: a' :: b' :: c' :: d' :: rest) =
      if isHighSurrogate n ∧ isLowSurrogate m then
        .ok (Char.ofNat (0x10000 + (n - 0xd800) * 0x400 + (m - 0xdc00)), rest)
      else .ok (charOf n, '\\' :: 'u' :: a' :: b' :: c' :: d' :: rest) := by
  have hlong : 4 < (a' :: b' :: c' :: d' :: rest).length := by
    have hpos := List.length_pos_iff.2 hr
    simp only [List.length_cons]
    omega
  simp only [unicodeEscape, List.drop_succ_cons, List.drop_zero]
  rw [fourHex?_append, hn]
  simp only [hlong, and_true]
  rw [fourHex?_append, hm]
  by_cases hhigh : isHighSurrogate n
  · by_cases hlow : isLowSurrogate m
    · simp [hhigh, hlow]
    · simp [hhigh, hlow]
  · simp [hhigh]

/-- The text of a string with its closing quote goes on with no unit if the string does not. -/
theorem Spells.no_unit {cs : List Char} {us : List CodeUnit} (h : Spells cs us)
    (hu : ∀ m us', us ≠ .unit m :: us') (rest : List Char) :
    ∃ r tail, cs ++ '"' :: rest = r :: tail ∧ ∀ more, r :: tail ≠ '\\' :: 'u' :: more := by
  cases h with
  | nil => exact ⟨'"', rest, rfl, fun more => by simp⟩
  | @plain c cs us _ _ hb _ => exact ⟨c, cs ++ '"' :: rest, rfl, fun more => by simp [hb]⟩
  | @short e c cs us he _ =>
    have hne := (simpleEscape?_of_mem he).1
    exact ⟨'\\', e :: (cs ++ '"' :: rest), rfl, fun more => by simp [hne]⟩
  | hex => exact absurd rfl (hu _ _)

/-- A string that goes on after a character. -/
def after (c : Char) (r : Except Fault (List Char × List Char)) :
    Except Fault (List Char × List Char) := r.map fun (cs, rest) => (c :: cs, rest)

section Pieces

variable (start : List Char) (fuel : Nat)

theorem stringBody_plain {c : Char} (hc : 32 ≤ c.toNat) (hq : c ≠ '"') (hb : c ≠ '\\')
    (cs : List Char) :
    stringBody start (fuel + 1) (c :: cs) = after c (stringBody start fuel cs) := by
  have hlow : ¬ c.toNat < 32 := Nat.not_lt.2 hc
  rw [stringBody]
  · rw [if_neg hlow]
    rfl
  · exact hq
  · exact hb

theorem stringBody_short {e c : Char} (he : (e, c) ∈ shortEscapes) (cs : List Char) :
    stringBody start (fuel + 1) ('\\' :: e :: cs) = after c (stringBody start fuel cs) := by
  obtain ⟨hu, hescape⟩ := simpleEscape?_of_mem he
  rw [stringBody, hescape]
  · rfl
  · exact hu

theorem stringBody_unit {c : Char} {cs rest : List Char}
    (hu : unicodeEscape ('u' :: cs) = .ok (c, rest)) :
    stringBody start (fuel + 1) ('\\' :: 'u' :: cs) = after c (stringBody start fuel rest) := by
  rw [stringBody]
  simp only [hu]
  rfl

end Pieces

/-- A string is read up to its closing quote. -/
theorem stringBody_spells (start : List Char) {cs : List Char} {us : List CodeUnit}
    (h : Spells cs us) {fuel : Nat} (hf : cs.length < fuel) (rest : List Char) :
    stringBody start fuel (cs ++ '"' :: rest) = .ok (ofUnits us, rest) := by
  -- The recursion is that of `ofUnits`, as a unit is looked at together with the next one.
  fun_induction ofUnits us generalizing cs fuel with
  | case1 =>
    obtain ⟨fuel, rfl⟩ : ∃ k, fuel = k + 1 := ⟨fuel - 1, by omega⟩
    cases h
    rfl
  | case2 c us ih =>
    obtain ⟨fuel, rfl⟩ : ∃ k, fuel = k + 1 := ⟨fuel - 1, by omega⟩
    cases h with
    | @plain _ cs _ hc hq hb hs =>
      rw [List.cons_append, stringBody_plain start fuel hc hq hb, ih hs (by simpa using hf)]
      rfl
    | @short e _ cs _ he hs =>
      have hf' : cs.length < fuel := by
        simp only [List.length_cons] at hf
        omega
      rw [List.cons_append, List.cons_append, stringBody_short start fuel he, ih hs hf']
      rfl
  | case3 n m us hpair ih =>
    obtain ⟨fuel, rfl⟩ : ∃ k, fuel = k + 1 := ⟨fuel - 1, by omega⟩
    cases h with | hex hn hs =>
    cases hs with | @hex _ _ _ _ _ cs _ hm hs =>
    have hescape := unicodeEscape_double hn hm (List.append_ne_nil_of_right_ne_nil cs
      (List.cons_ne_nil '"' rest))
    rw [if_pos hpair] at hescape
    simp only [List.length_cons] at hf
    simp only [List.cons_append]
    rw [stringBody_unit start fuel hescape, ih hs (by omega)]
    rfl
  | case4 n m us hpair ih =>
    obtain ⟨fuel, rfl⟩ : ∃ k, fuel = k + 1 := ⟨fuel - 1, by omega⟩
    cases h with | @hex _ _ _ _ _ tail _ hn hs =>
    have hf' : tail.length < fuel := by
      simp only [List.length_cons] at hf
      omega
    have hrest := ih hs hf'
    cases hs with | @hex _ _ _ _ _ cs _ hm hs =>
    have hescape := unicodeEscape_double hn hm (List.append_ne_nil_of_right_ne_nil cs
      (List.cons_ne_nil '"' rest))
    rw [if_neg hpair] at hescape
    simp only [List.cons_append] at hrest ⊢
    rw [stringBody_unit start fuel hescape, hrest]
    rfl
  | case5 n us hu ih =>
    obtain ⟨fuel, rfl⟩ : ∃ k, fuel = k + 1 := ⟨fuel - 1, by omega⟩
    cases h with | @hex _ _ _ _ _ cs _ hn hs =>
    obtain ⟨r, tail, htail, hne⟩ := hs.no_unit hu rest
    have hf' : cs.length < fuel := by
      simp only [List.length_cons] at hf
      omega
    have hrest := ih hs hf'
    have hescape := unicodeEscape_single hn hne
    simp only [List.cons_append]
    rw [htail] at hrest ⊢
    rw [stringBody_unit start fuel hescape, hrest]
    rfl

theorem StringText.read {l : Latitude} {cs : List Char} {s : String} (h : StringText l cs s) :
    ∃ body, cs = '"' :: body ∧ ∀ rest, readString (body ++ rest) = .ok (s, rest) := by
  obtain ⟨body, us, hs, -, rfl, rfl⟩ := h
  refine ⟨body ++ ['"'], rfl, fun rest => ?_⟩
  have hlong : body.length < (body ++ '"' :: rest).length + 1 := by
    simp only [List.length_append]
    omega
  rw [List.append_assoc, List.singleton_append, readString, stringBody_spells _ hs hlong rest]
  rfl

/-! ### Values are read -/

/-- A character with which a value can begin: it is no blank, ends no array, and is no mark. -/
def StartsValue (c : Char) : Prop := isSpace c = false ∧ c ≠ ']' ∧ c ≠ byteOrderMark

instance (c : Char) : Decidable (StartsValue c) := by unfold StartsValue; infer_instance

theorem startsValue_digit {c : Char} (h : c.isDigit) : StartsValue c := by
  refine ⟨?_, ?_, ?_⟩
  · cases hc : isSpace c with
    | false => rfl
    | true =>
      simp only [isSpace, Bool.or_eq_true, decide_eq_true_eq] at hc
      rcases hc with ((rfl | rfl) | rfl) | rfl <;> revert h <;> decide
  · rintro rfl
    revert h
    decide
  · rintro rfl
    revert h
    decide

/-- A number begins with a digit, or with a minus and a digit. -/
theorem NumberText.starts (t : NumberText) (rest : List Char) :
    ∃ d tail, d.isDigit ∧ (t.chars ++ rest = d :: tail ∨ t.chars ++ rest = '-' :: d :: tail) := by
  obtain ⟨hne, hd⟩ := t.whole_ok
  obtain ⟨d, ds, hds⟩ := List.exists_cons_of_ne_nil hne
  refine ⟨d, ds ++ (t.fraction ++ (t.exponent ++ rest)), hd d (hds ▸ List.mem_cons_self), ?_⟩
  cases hn : t.negative with
  | true => exact .inr (by simp [chars, hn, hds])
  | false => exact .inl (by simp [chars, hn, hds])

/-- The beginning of a part: that of a value, or of the name of a member. -/
def Part.Starts (cs : List Char) : Part → Prop
  | value _ => ∃ c tail, cs = c :: tail ∧ StartsValue c
  | items _ => ∃ c tail, cs = c :: tail ∧ StartsValue c
  | members _ => ∃ tail, cs = '"' :: tail

theorem starts_word {w : List Char} {v : Value} (h : (w, v) ∈ words) : (Part.value v).Starts w := by
  simp only [words, List.mem_cons, List.not_mem_nil, or_false, Prod.mk.injEq] at h
  obtain ⟨rfl, -⟩ | ⟨rfl, -⟩ | ⟨rfl, -⟩ | ⟨rfl, -⟩ | ⟨rfl, -⟩ | ⟨rfl, -⟩ := h <;>
    exact ⟨_, _, rfl, by decide⟩

theorem Writes.starts {l : Latitude} {cs : List Char} {p : Part} (h : Writes words l cs p) :
    p.Starts cs := by
  induction h with
  | word hw => exact starts_word hw
  | number t _ =>
    obtain ⟨d, tail, hd, ht | ht⟩ := t.starts []
    · exact ⟨d, tail, (List.append_nil _).symm.trans ht, startsValue_digit hd⟩
    · exact ⟨'-', d :: tail, (List.append_nil _).symm.trans ht, by decide⟩
  | string hs =>
    obtain ⟨body, rfl, -⟩ := hs.read
    exact ⟨'"', body, rfl, by decide⟩
  | emptyArray => exact ⟨'[', _, rfl, by decide⟩
  | array => exact ⟨'[', _, rfl, by decide⟩
  | emptyObject => exact ⟨'\x7b', _, rfl, by decide⟩
  | object => exact ⟨'\x7b', _, rfl, by decide⟩
  | item _ _ ih =>
    obtain ⟨c, tail, rfl, hc⟩ := ih
    exact ⟨c, _, rfl, hc⟩
  | items _ _ _ _ ih _ =>
    obtain ⟨c, tail, rfl, hc⟩ := ih
    exact ⟨c, _, rfl, hc⟩
  | member hk =>
    obtain ⟨body, rfl, -⟩ := hk.read
    exact ⟨_, rfl⟩
  | members hk =>
    obtain ⟨body, rfl, -⟩ := hk.read
    exact ⟨_, rfl⟩

theorem endsNumber_cons {c : Char} (h : c.isDigit = false ∧ c ≠ '.' ∧ c ≠ 'e' ∧ c ≠ 'E')
    (rest : List Char) : EndsNumber (c :: rest) := by
  rintro d ⟨⟩
  exact h

/-- A number ends where blanks follow it, or what follows the blanks ends it. -/
theorem endsNumber_blank {ws : List Char} (hw : Blank ws) {rest : List Char}
    (hr : EndsNumber rest) : EndsNumber (ws ++ rest) := by
  cases ws with
  | nil => exact hr
  | cons c ws =>
    apply endsNumber_cons
    rcases hw c List.mem_cons_self with rfl | rfl | rfl | rfl <;> decide

/-- No word is the beginning of a number. -/
theorem find?_words_number (t : NumberText) (rest : List Char) :
    (words.find? fun (w, _) => w.isPrefixOf (t.chars ++ rest)) = none := by
  obtain ⟨d, tail, hd, ht⟩ := t.starts rest
  have hne : 'n' ≠ d ∧ 't' ≠ d ∧ 'f' ≠ d ∧ 'N' ≠ d ∧ 'I' ≠ d ∧ '-' ≠ d := by
    refine ⟨?_, ?_, ?_, ?_, ?_, ?_⟩ <;> rintro rfl <;> revert hd <;> decide
  rcases ht with ht | ht
  · simp [ht, words, hne]
  · simp [ht, words, hne]

/-- A text that begins with none of the signs is a word or a number. -/
theorem readValue_number {cs : List Char} (hf : (words.find? fun (w, _) => w.isPrefixOf cs) = none)
    (hs : ∀ c ∈ cs.head?, c ≠ '"' ∧ c ≠ '\x7b' ∧ c ≠ '[') (fuel : Nat) :
    readValue (fuel + 1) cs = readNumber cs := by
  cases cs with
  | nil => rfl
  | cons c cs =>
    obtain ⟨hq, hb, hl⟩ := hs c rfl
    rw [readValue, hf]
    · rintro rest ⟨⟩
      exact hq rfl
    · rintro rest ⟨⟩
      exact hb rfl
    · rintro rest ⟨⟩
      exact hl rfl

section Members

variable {body ws ws₂ text more : List Char} {k : String} {c : Char} {v : Value} {fuel : Nat}
  (hbody : ∀ rest, readString (body ++ rest) = .ok (k, rest)) (hw : Blank ws) (hw₂ : Blank ws₂)
  (hc : isSpace c = false) (hvalue : readValue fuel (c :: text) = .ok (v, more)) (done : Entries)
include hbody hw hw₂ hc hvalue

/-- A member is read up to its value, and what follows that decides how it goes on. -/
theorem readMembers_last {rest : List Char} (hmore : skipSpace more = '\x7d' :: rest) :
    readMembers (fuel + 1) done ('"' :: (body ++ (ws ++ ':' :: (ws₂ ++ c :: text)))) =
      .ok (Keyed.put done (.str k) v, rest) := by
  have hcolon : skipSpace (ws ++ ':' :: (ws₂ ++ c :: text)) = ':' :: (ws₂ ++ c :: text) :=
    skipSpace_blank hw rfl _
  have hskip : skipSpace (ws₂ ++ c :: text) = c :: text := skipSpace_blank hw₂ hc text
  rw [readMembers, hbody]
  simp only [bind, Except.bind, hcolon, hskip, hvalue, hmore]

theorem readMembers_more {rest : List Char} (hmore : skipSpace more = ',' :: rest) :
    readMembers (fuel + 1) done ('"' :: (body ++ (ws ++ ':' :: (ws₂ ++ c :: text)))) =
      readMembers fuel (Keyed.put done (.str k) v) (skipSpace rest) := by
  have hcolon : skipSpace (ws ++ ':' :: (ws₂ ++ c :: text)) = ':' :: (ws₂ ++ c :: text) :=
    skipSpace_blank hw rfl _
  have hskip : skipSpace (ws₂ ++ c :: text) = c :: text := skipSpace_blank hw₂ hc text
  rw [readMembers, hbody]
  simp only [bind, Except.bind, hcolon, hskip, hvalue, hmore]

end Members

/-- What reading a part from a text does. Fuel for every character of the part is enough. -/
def Part.Reads (cs : List Char) : Part → Prop
  | value v => ∀ fuel rest, cs.length ≤ fuel → EndsNumber rest →
    readValue fuel (cs ++ rest) = .ok (v, rest)
  | items vs => ∀ fuel rest, cs.length < fuel →
    readItems fuel (cs ++ ']' :: rest) = .ok (vs, rest)
  | members ms => ∀ fuel done rest, cs.length < fuel →
    readMembers fuel done (cs ++ '\x7d' :: rest) = .ok (Keyed.overlay done ms, rest)

theorem readValue_word {w : List Char} {v : Value} (h : (w, v) ∈ words) (fuel : Nat)
    (rest : List Char) : readValue (fuel + 1) (w ++ rest) = .ok (v, rest) := by
  simp only [words, List.mem_cons, List.not_mem_nil, or_false, Prod.mk.injEq] at h
  obtain ⟨rfl, rfl⟩ | ⟨rfl, rfl⟩ | ⟨rfl, rfl⟩ | ⟨rfl, rfl⟩ | ⟨rfl, rfl⟩ | ⟨rfl, rfl⟩ := h <;> rfl

theorem NumberText.length_pos (t : NumberText) : 0 < t.chars.length := by
  have hpos : 0 < t.whole.length := List.length_pos_iff.2 t.whole_ok.1
  simp only [NumberText.chars, List.length_append]
  omega

/-- A number begins in no way in which a string, an object or an array does. -/
theorem NumberText.head_ne (t : NumberText) (rest : List Char) :
    ∀ c ∈ (t.chars ++ rest).head?, c ≠ '"' ∧ c ≠ '\x7b' ∧ c ≠ '[' := by
  obtain ⟨d, tail, hd, ht | ht⟩ := t.starts rest
  · rw [ht]
    rintro c ⟨⟩
    refine ⟨?_, ?_, ?_⟩ <;> rintro rfl <;> revert hd <;> decide
  · rw [ht]
    rintro c ⟨⟩
    decide

/-- Every part of a text is read, to its end and as what it writes. -/
theorem Writes.reads {cs : List Char} {p : Part} (h : Writes words .reader cs p) :
    p.Reads cs := by
  induction h with
  | @word w v hw =>
    intro fuel rest hf _
    obtain ⟨c, tail, rfl, -⟩ := starts_word hw
    obtain ⟨fuel, rfl⟩ : ∃ k, fuel = k + 1 := ⟨fuel - 1, by simp at hf; omega⟩
    exact readValue_word hw fuel rest
  | number t hs =>
    intro fuel rest hf hr
    have hpos := t.length_pos
    obtain ⟨fuel, rfl⟩ : ∃ k, fuel = k + 1 := ⟨fuel - 1, by omega⟩
    rw [readValue_number (find?_words_number t rest) (t.head_ne rest)]
    exact t.read hr hs
  | string hs =>
    intro fuel rest hf _
    obtain ⟨body, rfl, hbody⟩ := hs.read
    obtain ⟨fuel, rfl⟩ : ∃ k, fuel = k + 1 := ⟨fuel - 1, by simp at hf; omega⟩
    rw [List.cons_append, readValue, hbody]
    rfl
  | @emptyArray ws hw =>
    intro fuel rest hf _
    obtain ⟨fuel, rfl⟩ : ∃ k, fuel = k + 1 := ⟨fuel - 1, by simp at hf; omega⟩
    have hskip : skipSpace (ws ++ ']' :: rest) = ']' :: rest := skipSpace_blank hw rfl rest
    simp only [List.cons_append, List.append_assoc, List.nil_append, readValue, hskip]
  | @array ws cs vs hw hs ih =>
    intro fuel rest hf _
    obtain ⟨fuel, rfl⟩ : ∃ k, fuel = k + 1 := ⟨fuel - 1, by simp at hf; omega⟩
    obtain ⟨c, tail, rfl, hc, hend, -⟩ := hs.starts
    have hitems := ih fuel rest (by simp at hf ⊢; omega)
    have hskip : skipSpace (ws ++ c :: (tail ++ ']' :: rest)) = c :: (tail ++ ']' :: rest) :=
      skipSpace_blank hw hc _
    simp only [List.cons_append, List.append_assoc, List.nil_append] at hitems ⊢
    rw [readValue, hskip]
    split
    · rename_i hclose
      exact absurd (List.cons.inj hclose).1 hend
    · rw [hitems]
      rfl
  | @emptyObject ws hw =>
    intro fuel rest hf _
    obtain ⟨fuel, rfl⟩ : ∃ k, fuel = k + 1 := ⟨fuel - 1, by simp at hf; omega⟩
    have hskip : skipSpace (ws ++ '\x7d' :: rest) = '\x7d' :: rest := skipSpace_blank hw rfl rest
    simp only [List.cons_append, List.append_assoc, List.nil_append, readValue, hskip]
  | @object ws cs ms hw hs ih =>
    intro fuel rest hf _
    obtain ⟨fuel, rfl⟩ : ∃ k, fuel = k + 1 := ⟨fuel - 1, by simp at hf; omega⟩
    obtain ⟨tail, rfl⟩ := hs.starts
    have hmembers := ih fuel [] rest (by simp at hf ⊢; omega)
    have hskip : skipSpace (ws ++ '"' :: (tail ++ '\x7d' :: rest)) =
        '"' :: (tail ++ '\x7d' :: rest) := skipSpace_blank hw rfl _
    simp only [List.cons_append, List.append_assoc, List.nil_append] at hmembers ⊢
    rw [readValue, hskip]
    split
    · rename_i hclose
      exact absurd (List.cons.inj hclose).1 (by decide)
    · rw [hmembers]
      rfl
  | @item cs v ws hs hw ih =>
    intro fuel rest hf
    obtain ⟨fuel, rfl⟩ : ∃ k, fuel = k + 1 := ⟨fuel - 1, by omega⟩
    have hends : EndsNumber (ws ++ ']' :: rest) :=
      endsNumber_blank hw (endsNumber_cons (by decide) rest)
    have hvalue := ih fuel (ws ++ ']' :: rest) (by simp at hf; omega) hends
    have hskip : skipSpace (ws ++ ']' :: rest) = ']' :: rest := skipSpace_blank hw rfl rest
    rw [List.append_assoc, readItems, hvalue]
    simp only [bind, Except.bind, hskip]
  | @items cs v ws ws₂ ds vs hs hw hw₂ hds ih ihs =>
    intro fuel rest hf
    obtain ⟨fuel, rfl⟩ : ∃ k, fuel = k + 1 := ⟨fuel - 1, by omega⟩
    obtain ⟨c, tail, rfl, hc, -⟩ := hds.starts
    let more := ws₂ ++ c :: (tail ++ ']' :: rest)
    have hitems := ihs fuel rest (by simp at hf ⊢; omega)
    have hends : EndsNumber (ws ++ ',' :: more) :=
      endsNumber_blank hw (endsNumber_cons (by decide) more)
    have hvalue := ih fuel (ws ++ ',' :: more) (by simp at hf; omega) hends
    have hcomma : skipSpace (ws ++ ',' :: more) = ',' :: more := skipSpace_blank hw rfl more
    have hmore : skipSpace more = c :: (tail ++ ']' :: rest) := skipSpace_blank hw₂ hc _
    simp only [List.cons_append, List.append_assoc] at hitems ⊢
    rw [readItems, hvalue]
    simp only [bind, Except.bind, hcomma, hmore, hitems, more]
  | @member ks k ws ws₂ cs v ws₃ hk hw hw₂ hs hw₃ ih =>
    intro fuel done rest hf
    obtain ⟨fuel, rfl⟩ : ∃ k, fuel = k + 1 := ⟨fuel - 1, by omega⟩
    obtain ⟨body, rfl, hbody⟩ := hk.read
    obtain ⟨c, tail, rfl, hc, -⟩ := hs.starts
    have hends : EndsNumber (ws₃ ++ '\x7d' :: rest) :=
      endsNumber_blank hw₃ (endsNumber_cons (by decide) rest)
    have hvalue := ih fuel _ (by simp at hf ⊢; omega) hends
    have hclose : skipSpace (ws₃ ++ '\x7d' :: rest) = '\x7d' :: rest :=
      skipSpace_blank hw₃ rfl rest
    simp only [List.cons_append, List.append_assoc] at hvalue ⊢
    exact readMembers_last hbody hw hw₂ hc hvalue done hclose
  | @members ks k ws ws₂ cs v ws₃ ws₄ ds ms hk hw hw₂ hs hw₃ hw₄ hds ih ihs =>
    intro fuel done rest hf
    obtain ⟨fuel, rfl⟩ : ∃ k, fuel = k + 1 := ⟨fuel - 1, by omega⟩
    obtain ⟨body, rfl, hbody⟩ := hk.read
    obtain ⟨c, tail, rfl, hc, -⟩ := hs.starts
    obtain ⟨name, rfl⟩ := hds.starts
    let last := ws₄ ++ '"' :: (name ++ '\x7d' :: rest)
    have hmembers := ihs fuel (Keyed.put done (.str k) v) rest (by simp at hf ⊢; omega)
    have hends : EndsNumber (ws₃ ++ ',' :: last) :=
      endsNumber_blank hw₃ (endsNumber_cons (by decide) last)
    have hvalue := ih fuel _ (by simp at hf ⊢; omega) hends
    have hcomma : skipSpace (ws₃ ++ ',' :: last) = ',' :: last := skipSpace_blank hw₃ rfl last
    have hlast : skipSpace last = '"' :: (name ++ '\x7d' :: rest) := skipSpace_blank hw₄ rfl _
    simp only [List.cons_append, List.append_assoc] at hvalue hmembers ⊢
    rw [readMembers_more hbody hw hw₂ hc hvalue done hcomma, hlast, hmembers]
    rfl

/-- The reader reads every text of the words it knows, as the value that the text writes. -/
theorem IsTextWith.read {cs : List Char} {v : Value} (h : IsTextWith words .reader cs v) :
    Json.read cs = .ok v := by
  obtain ⟨ws, ds, ws₂, rfl, hw, hw₂, hs⟩ := h
  obtain ⟨c, tail, rfl, hc, -, hmark⟩ := hs.starts
  have hvalue := hs.reads ((ws ++ c :: tail ++ ws₂).length + 1) ws₂
    (by simp only [List.length_append, List.length_cons]; omega) (by
      rw [← List.append_nil ws₂]
      exact endsNumber_blank hw₂ nofun)
  have hunmarked : readUnmarked (ws ++ c :: tail ++ ws₂) = .ok v := by
    have hskip : skipSpace (ws ++ c :: tail ++ ws₂) = c :: tail ++ ws₂ := by
      rw [List.append_assoc]
      exact skipSpace_blank hw hc (tail ++ ws₂)
    rw [readUnmarked, hskip, hvalue]
    simp only [bind, Except.bind, skipSpace_blank_nil hw₂]
  have hfirst : ∀ b ∈ (ws ++ c :: tail ++ ws₂).head?, b ≠ byteOrderMark := by
    cases ws with
    | nil =>
      rintro b ⟨⟩
      exact hmark
    | cons a ws =>
      rintro b ⟨⟩
      rcases hw a List.mem_cons_self with rfl | rfl | rfl | rfl <;> decide
  unfold Json.read
  split
  · rename_i b rest hb
    rw [if_neg (hfirst b (by rw [hb]; rfl)), hunmarked]
  · exact hunmarked

theorem IsText.read {cs : List Char} {v : Value} (h : IsText .short cs v) :
    Json.read cs = .ok v :=
  (h.mono grammarWords_subset Latitude.short_le_reader).read

end Json
end CheckedActions
