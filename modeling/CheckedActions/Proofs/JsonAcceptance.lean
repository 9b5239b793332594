import CheckedActions.Proofs.JsonReading
import CheckedActions.Proofs.Runs
import Mathlib.Data.List.TakeWhile

/-!
The reader reads nothing but texts of the words it knows: what it reads is a part of the text as the
grammar has it, and its value is what that part writes.
-/

namespace CheckedActions
namespace Json

/-- The blanks that are skipped. -/
theorem exists_blank (cs : List Char) : ∃ ws, Blank ws ∧ cs = ws ++ skipSpace cs := by
  refine ⟨cs.takeWhile isSpace, ?_, List.takeWhile_append_dropWhile.symm⟩
  intro c hc
  have hspace := (List.mem_takeWhile_imp hc : isSpace c = true)
  simpa [isSpace, or_assoc] using hspace

/-- Blanks are skipped up to the given rest. -/
theorem exists_blank_of {cs rest : List Char} (h : skipSpace cs = rest) :
    ∃ ws, Blank ws ∧ cs = ws ++ rest := h ▸ exists_blank cs

/-! ### Numbers -/

theorem isDigits_takeWhile {cs : List Char} (h : ¬ (cs.takeWhile Char.isDigit).isEmpty) :
    IsDigits (cs.takeWhile Char.isDigit) :=
  ⟨by simpa using h, fun _ hc => List.mem_takeWhile_imp hc⟩

theorem splitSign_eq {cs rest : List Char} {negative : Bool}
    (h : splitSign cs = (negative, rest)) : cs = (if negative then ['-'] else []) ++ rest := by
  unfold splitSign at h
  split at h <;> cases h <;> rfl

/-- The digits of a whole number, where there are some, and what they are taken from. -/
theorem wholeDigits_spec {cs : List Char} (h : ¬ (wholeDigits cs).isEmpty) :
    IsDigits (wholeDigits cs) ∧ ((wholeDigits cs).head? = some '0' → wholeDigits cs = ['0']) ∧
      cs = wholeDigits cs ++ cs.drop (wholeDigits cs).length := by
  unfold wholeDigits at h ⊢
  split
  · have hzero : IsDigits ['0'] := ⟨by simp, fun c hc => List.mem_singleton.1 hc ▸ rfl⟩
    exact ⟨hzero, fun _ => rfl, rfl⟩
  · rename_i hzero
    refine ⟨isDigits_takeWhile (by simpa using h), ?_, ?_⟩
    · intro hhead
      cases cs with
      | nil => cases hhead
      | cons c cs =>
        rw [List.takeWhile_cons] at hhead
        split at hhead
        · cases hhead
          exact absurd rfl (hzero cs)
        · cases hhead
    · exact (List.prefix_iff_eq_append.1 (List.takeWhile_prefix Char.isDigit)).symm

/-- The fraction that begins a text, if one does, and what follows it. -/
theorem exists_places (cs : List Char) :
    ∃ places? : Option (List Char), fractionDigits cs = places?.getD [] ∧
      (∀ places, places? = some places → IsDigits places) ∧
      cs = places?.elim [] ('.' :: ·) ++ (if (fractionDigits cs).isEmpty then cs
        else cs.drop ((fractionDigits cs).length + 1)) := by
  by_cases h : (fractionDigits cs).isEmpty
  · refine ⟨none, by simpa using h, ?_, by simp [h]⟩
    rintro _ ⟨⟩
  · refine ⟨some (fractionDigits cs), rfl, ?_, ?_⟩
    · rintro _ ⟨⟩
      unfold fractionDigits at h ⊢
      split at h
      · exact isDigits_takeWhile h
      · exact absurd rfl h
    · rw [if_neg h]
      unfold fractionDigits at h ⊢
      split at h
      · rename_i rest
        have hrest := List.prefix_iff_eq_append.1 (List.takeWhile_prefix Char.isDigit (l := rest))
        simpa using hrest.symm
      · exact absurd rfl h

/-- The exponent that begins a text is one of the grammar. -/
theorem exists_exponent {cs rest : List Char} {n : Int} (h : exponent? cs = some (n, rest)) :
    ∃ e : ExponentText, cs = e.chars ++ rest ∧ n = e.value := by
  have hnumber : ∀ (negative : Bool) {ds : List Char},
      (if (ds.takeWhile Char.isDigit).isEmpty then none else
        some (if negative then -(Decimal.natOf (ds.takeWhile Char.isDigit) : Int)
          else (Decimal.natOf (ds.takeWhile Char.isDigit) : Int), ds.dropWhile Char.isDigit)) =
          some (n, rest) →
        IsDigits (ds.takeWhile Char.isDigit) ∧ ds = ds.takeWhile Char.isDigit ++ rest ∧
          n = if negative then -(Decimal.natOf (ds.takeWhile Char.isDigit) : Int)
            else (Decimal.natOf (ds.takeWhile Char.isDigit) : Int) := by
    intro negative ds hds
    split at hds
    · cases hds
    · rename_i hne
      obtain ⟨hn, hrest⟩ := Prod.mk.inj (Option.some.inj hds)
      exact ⟨isDigits_takeWhile hne, hrest ▸ List.takeWhile_append_dropWhile.symm, hn.symm⟩
  unfold exponent? at h
  cases cs with
  | nil => cases h
  | cons mark cs =>
    dsimp only at h
    split at h
    · rename_i hmark
      split at h
      · obtain ⟨hds, hcs, hn⟩ := hnumber true h
        refine ⟨⟨mark, ['-'], _, hmark, .inr (.inr rfl), hds⟩, ?_, hn⟩
        rw [ExponentText.chars, List.cons_append, List.append_assoc, ← hcs]
        rfl
      · obtain ⟨hds, hcs, hn⟩ := hnumber false h
        refine ⟨⟨mark, ['+'], _, hmark, .inr (.inl rfl), hds⟩, ?_, hn⟩
        rw [ExponentText.chars, List.cons_append, List.append_assoc, ← hcs]
        rfl
      · obtain ⟨hds, hcs, hn⟩ := hnumber false h
        refine ⟨⟨mark, [], _, hmark, .inl rfl, hds⟩, ?_, hn⟩
        rw [ExponentText.chars, List.cons_append, List.append_assoc, ← hcs]
        rfl
    · cases h

/-- The only fault of a number that is one are too many digits of it. -/
theorem tooManyDigits_number {start : List Char} {n : Nat}
    (h : readNumber start = .error (.tooManyDigits n)) :
    digitLimit < n ∧ ∃ ds, ds <:+: start ∧ ds.length = n ∧ IsDigits ds := by
  unfold readNumber at h
  rcases hsign : splitSign start with ⟨negative, cs⟩
  simp only [hsign] at h
  split at h
  · cases h
  · rename_i hwhole
    obtain ⟨hdigits, -, hcs⟩ := wholeDigits_spec hwhole
    have hinfix : wholeDigits cs <:+: start := by
      rw [splitSign_eq hsign]
      exact ⟨_, _, (List.append_assoc _ _ _).trans (congrArg _ hcs.symm)⟩
    split at h
    · split at h
      · rename_i hlong
        cases h
        exact ⟨hlong, _, hinfix, rfl, hdigits⟩
      · cases h
    · cases h
    · cases h

/-- What is read as a number is one of the grammar. -/
theorem exists_number {start rest : List Char} {v : Value}
    (h : readNumber start = .ok (v, rest)) :
    ∃ t : NumberText, start = t.chars ++ rest ∧ v = t.value ∧
      (t.IsWhole → t.whole.length ≤ digitLimit) := by
  unfold readNumber at h
  rcases hsign : splitSign start with ⟨negative, cs⟩
  simp only [hsign] at h
  split at h
  · cases h
  · rename_i hwhole
    obtain ⟨hdigits, hlead, hcs⟩ := wholeDigits_spec hwhole
    obtain ⟨places?, hfraction, hplaces, hafter⟩ :=
      exists_places (cs.drop (wholeDigits cs).length)
    rw [hfraction] at h hafter
    generalize (if (places?.getD []).isEmpty then cs.drop (wholeDigits cs).length
      else (cs.drop (wholeDigits cs).length).drop ((places?.getD []).length + 1)) = afterPlaces
      at h hafter
    let t (e? : Option ExponentText) : NumberText :=
      ⟨negative, wholeDigits cs, places?, e?, hdigits, hlead, hplaces⟩
    have hchars : ∀ (e? : Option ExponentText) (rest : List Char),
        afterPlaces = (t e?).exponent ++ rest → start = (t e?).chars ++ rest := by
      intro e? rest hrest
      have hfractions : places?.elim [] ('.' :: ·) = (t e?).fraction := by
        simp only [NumberText.fraction, t]
        cases places? <;> rfl
      rw [splitSign_eq hsign, hcs, hafter, hrest, hfractions, NumberText.chars]
      simp [t]
    cases hexponent : exponent? afterPlaces with
    | some e =>
      obtain ⟨n, more⟩ := e
      obtain ⟨e, he, rfl⟩ := exists_exponent hexponent
      simp only [hexponent] at h
      cases h
      refine ⟨t (some e), hchars (some e) _ he, by cases places? <;> rfl, ?_⟩
      rintro ⟨-, ⟨⟩⟩
    | none =>
      cases places? with
      | some places =>
        have hne : places.isEmpty = false := by simpa using (hplaces places rfl).1
        simp only [hexponent, Option.getD_some, hne] at h
        cases h
        refine ⟨t none, hchars none _ rfl, ?_, ?_⟩
        · simp [NumberText.value, t]
        · rintro ⟨⟨⟩, -⟩
      | none =>
        simp only [hexponent, Option.getD_none, List.isEmpty_nil] at h
        split at h
        · cases h
        · rename_i hshort
          cases h
          exact ⟨t none, hchars none _ hafter.symm, rfl, fun _ => Nat.not_lt.1 hshort⟩

/-! ### Strings -/

theorem exists_fourHex {cs : List Char} {n : Nat} (h : fourHex? cs = some n) :
    ∃ a b c d, cs = a :: b :: c :: d :: cs.drop 4 ∧ fourHex? [a, b, c, d] = some n := by
  unfold fourHex? at h
  split at h
  · exact ⟨_, _, _, _, rfl, h⟩
  · cases h

theorem simpleEscape?_mem {e c : Char} (h : simpleEscape? e = some c) : (e, c) ∈ shortEscapes := by
  unfold simpleEscape? at h
  split at h <;> cases h <;> decide

/-- The text does not begin with the escape of a unit that makes a pair with the given one. -/
def NoPair (n : Nat) (cs : List Char) : Prop :=
  ∀ a b c d m more, cs = '\\' :: 'u' :: a :: b :: c :: d :: more → more ≠ [] →
    fourHex? [a, b, c, d] = some m → ¬ (isHighSurrogate n ∧ isLowSurrogate m)

/-- What is read as one character is one unit, or two that are a pair. -/
theorem unicodeEscape_spec {cs rest : List Char} {c : Char}
    (h : unicodeEscape ('u' :: cs) = .ok (c, rest)) :
    (∃ a b c' d n, cs = a :: b :: c' :: d :: rest ∧ fourHex? [a, b, c', d] = some n ∧
      c = charOf n ∧ NoPair n rest) ∨
    (∃ a b c' d n a₂ b₂ c₂ d₂ m,
      cs = a :: b :: c' :: d :: '\\' :: 'u' :: a₂ :: b₂ :: c₂ :: d₂ :: rest ∧
      fourHex? [a, b, c', d] = some n ∧ fourHex? [a₂, b₂, c₂, d₂] = some m ∧
      (isHighSurrogate n ∧ isLowSurrogate m) ∧
      c = Char.ofNat (0x10000 + (n - 0xd800) * 0x400 + (m - 0xdc00))) := by
  simp only [unicodeEscape, List.drop_succ_cons, List.drop_zero] at h
  split at h
  · rename_i n r tail hn hrest
    obtain ⟨a, b, c', d, hcs, hhex⟩ := exists_fourHex hn
    split at h
    · rename_i more hmore
      have hlong : ∀ a₂ b₂ c₂ d₂ m more₂,
          cs.drop 4 = '\\' :: 'u' :: a₂ :: b₂ :: c₂ :: d₂ :: more₂ → more₂ ≠ [] →
          fourHex? [a₂, b₂, c₂, d₂] = some m → 4 < more.length ∧ fourHex? more = some m := by
        intro a₂ b₂ c₂ d₂ m more₂ hmore₂ hne hm
        cases hmore.symm.trans hmore₂
        have hpos := List.length_pos_iff.2 hne
        refine ⟨?_, hm⟩
        simp only [List.length_cons]
        omega
      split at h
      · rename_i hpair
        split at h
        · cases h
        · rename_i m hm
          split at h
          · rename_i hlow
            obtain ⟨rfl, rfl⟩ := Prod.mk.inj (Except.ok.inj h)
            obtain ⟨a₂, b₂, c₂, d₂, hmore₂, hhex₂⟩ := exists_fourHex hm
            refine .inr ⟨a, b, c', d, n, a₂, b₂, c₂, d₂, m, ?_, hhex, hhex₂, ⟨hpair.1, hlow⟩, rfl⟩
            rw [hcs, hmore, hmore₂]
            simp
          · rename_i hlow
            cases h
            refine .inl ⟨a, b, c', d, n, hmore ▸ hcs, hhex, rfl, ?_⟩
            intro a₂ b₂ c₂ d₂ m₂ more₂ hmore₂ hne hm₂ hboth
            obtain ⟨-, hm'⟩ := hlong a₂ b₂ c₂ d₂ m₂ more₂ hmore₂ hne hm₂
            cases hm.symm.trans hm'
            exact hlow hboth.2
      · rename_i hpair
        cases h
        refine .inl ⟨a, b, c', d, n, hmore ▸ hcs, hhex, rfl, ?_⟩
        intro a₂ b₂ c₂ d₂ m more₂ hmore₂ hne hm hboth
        exact hpair ⟨hboth.1, (hlong a₂ b₂ c₂ d₂ m more₂ hmore₂ hne hm).1⟩
    · rename_i hne
      cases h
      refine .inl ⟨a, b, c', d, n, hcs, hhex, rfl, ?_⟩
      intro a₂ b₂ c₂ d₂ m more hmore
      exact absurd hmore (hne _)
  · cases h

/-- A unit that makes no pair with the next one is a character of its own. -/
theorem ofUnits_alone {n : Nat} {us : List CodeUnit}
    (h : ∀ m vs, us = .unit m :: vs → ¬ (isHighSurrogate n ∧ isLowSurrogate m)) :
    ofUnits (.unit n :: us) = charOf n :: ofUnits us := by
  cases us with
  | nil => rfl
  | cons u us =>
    cases u with
    | char c => rfl
    | unit m => rw [ofUnits, if_neg (h m us rfl)]

theorem Spells.not_pair {n m : Nat} {cs rest : List Char} {us : List CodeUnit}
    (h : Spells cs (.unit m :: us)) (halone : NoPair n (cs ++ '"' :: rest)) :
    ¬ (isHighSurrogate n ∧ isLowSurrogate m) := by
  cases h with | @hex a b c d _ cs _ hm _ =>
  exact halone a b c d m (cs ++ '"' :: rest) rfl (by simp) hm

/-- What is read up to a closing quote is the inside of a string. -/
theorem exists_spells {start : List Char} {fuel : Nat} {cs out rest : List Char}
    (h : stringBody start fuel cs = .ok (out, rest)) :
    ∃ body us, Spells body us ∧ cs = body ++ '"' :: rest ∧ out = ofUnits us := by
  fun_induction stringBody start fuel cs generalizing out with
  | case1 => cases h
  | case2 => cases h
  | case3 =>
    cases h
    exact ⟨[], [], .nil, rfl, rfl⟩
  | case4 => cases h
  | case5 fuel tail ih =>
    obtain ⟨⟨c, after⟩, hescape, h⟩ := bind_eq_ok_iff.1 h
    obtain ⟨⟨cs, _⟩, hbody, h⟩ := bind_eq_ok_iff.1 h
    cases h
    obtain ⟨body, us, hus, rfl, rfl⟩ := ih after hbody
    obtain ⟨a, b, c', d, n, rfl, hn, rfl, halone⟩ |
      ⟨a, b, c', d, n, a₂, b₂, c₂, d₂, m, rfl, hn, hm, hpair, hc⟩ := unicodeEscape_spec hescape
    · refine ⟨_, .unit n :: us, .hex hn hus, rfl, (ofUnits_alone ?_).symm⟩
      rintro m vs rfl
      exact hus.not_pair halone
    · refine ⟨_, .unit n :: .unit m :: us, .hex hn (.hex hm hus), rfl, ?_⟩
      rw [hc, ofUnits, if_pos hpair]
  | case6 fuel e after hu c hc ih =>
    obtain ⟨⟨cs, _⟩, hbody, h⟩ := bind_eq_ok_iff.1 h
    cases h
    obtain ⟨body, us, hus, rfl, rfl⟩ := ih hbody
    exact ⟨'\\' :: e :: body, .char c :: us, .short (simpleEscape?_mem hc) hus, rfl, rfl⟩
  | case7 => cases h
  | case8 => cases h
  | case9 fuel c after hq hb hc ih =>
    obtain ⟨⟨cs, _⟩, hbody, h⟩ := bind_eq_ok_iff.1 h
    cases h
    obtain ⟨body, us, hus, rfl, rfl⟩ := ih hbody
    exact ⟨c :: body, .char c :: us, .plain (Nat.not_lt.1 hc) hq hb hus, rfl, rfl⟩

theorem unicodeEscape_ne_tooManyDigits {cs : List Char} {n : Nat} :
    unicodeEscape cs ≠ .error (.tooManyDigits n) := by
  intro h
  simp only [unicodeEscape] at h
  repeat' split at h
  all_goals cases h

theorem stringBody_ne_tooManyDigits {start : List Char} {fuel n : Nat} {cs : List Char} :
    stringBody start fuel cs ≠ .error (.tooManyDigits n) := by
  fun_induction stringBody start fuel cs with
  | case5 fuel tail ih =>
    intro h
    obtain h | ⟨⟨c, after⟩, -, h⟩ := bind_eq_error_iff.1 h
    · exact unicodeEscape_ne_tooManyDigits h
    · obtain h | ⟨_, -, h⟩ := bind_eq_error_iff.1 h
      · exact ih after h
      · cases h
  | case6 fuel e after hu c hc ih =>
    intro h
    obtain h | ⟨_, -, h⟩ := bind_eq_error_iff.1 h
    · exact ih h
    · cases h
  | case9 fuel c after hq hb hc ih =>
    intro h
    obtain h | ⟨_, -, h⟩ := bind_eq_error_iff.1 h
    · exact ih h
    · cases h
  | _ =>
    intro h
    cases h

theorem exists_stringText {cs rest : List Char} {k : String}
    (h : readString cs = .ok (k, rest)) :
    ∃ ds, '"' :: cs = ds ++ rest ∧ StringText .reader ds k := by
  obtain ⟨⟨out, _⟩, hbody, h⟩ := map_eq_ok_iff.1 h
  cases h
  obtain ⟨body, us, hus, rfl, rfl⟩ := exists_spells hbody
  exact ⟨'"' :: body ++ ['"'], by simp, body, us, hus, .inl trivial, rfl, rfl⟩

/-! ### What readings say about their text -/

/-- The text has `n` digits in a row, which are more than are read. -/
def LongDigits (n : Nat) (cs : List Char) : Prop :=
  digitLimit < n ∧ ∃ ds, ds <:+: cs ∧ ds.length = n ∧ ∀ c ∈ ds, c.isDigit

/-- A reading has read a part as it should be, or has met too many digits, if the text was not
malformed. -/
def Justified {α : Type} (cs : List Char) (p : α → List Char → Prop) :
    Except Fault (α × List Char) → Prop
  | .ok (a, rest) => ∃ ds, cs = ds ++ rest ∧ p a ds
  | .error (.malformed _ _) => True
  | .error (.tooManyDigits n) => LongDigits n cs

theorem LongDigits.within {n : Nat} {cs : List Char} (h : LongDigits n cs) (before : List Char) :
    LongDigits n (before ++ cs) := by
  obtain ⟨hn, ds, hds, hlength, hdigits⟩ := h
  exact ⟨hn, ds, hds.trans (List.suffix_append before cs).isInfix, hlength, hdigits⟩

namespace Justified

variable {α β : Type} {cs : List Char} {p : α → List Char → Prop} {q : β → List Char → Prop}

theorem bind {x : Except Fault (α × List Char)}
    {f : α × List Char → Except Fault (β × List Char)} (h : Justified cs p x)
    (hf : ∀ a ds rest, cs = ds ++ rest → p a ds → Justified cs q (f (a, rest))) :
    Justified cs q (x >>= f) := by
  rcases x with (⟨reason, rest⟩ | n) | ⟨a, rest⟩
  · trivial
  · exact h
  · obtain ⟨ds, hcs, hp⟩ := h
    exact hf a ds rest hcs hp

theorem map {x : Except Fault (α × List Char)} {f : α → β} (h : Justified cs p x)
    (hf : ∀ a ds, p a ds → q (f a) ds) :
    Justified cs q (x.map fun (a, rest) => (f a, rest)) := by
  rcases x with (⟨reason, rest⟩ | n) | ⟨a, rest⟩
  · trivial
  · exact h
  · obtain ⟨ds, hcs, hp⟩ := h
    exact ⟨ds, hcs, hf a ds hp⟩

/-- What has been read before is a part of the text as well. -/
theorem within {q : α → List Char → Prop} {x : Except Fault (α × List Char)}
    (h : Justified cs p x) (before : List Char) (hq : ∀ a ds, p a ds → q a (before ++ ds)) :
    Justified (before ++ cs) q x := by
  rcases x with (⟨reason, rest⟩ | n) | ⟨a, rest⟩
  · trivial
  · exact LongDigits.within h before
  · obtain ⟨ds, rfl, hpart⟩ := h
    exact ⟨before ++ ds, (List.append_assoc _ _ _).symm, hq a ds hpart⟩

end Justified

/-- The reader takes the part of a text. -/
abbrev Taken (p : Part) (cs : List Char) : Prop := Writes words .reader cs p

theorem justified_string (cs : List Char) :
    Justified ('"' :: cs) (fun k ds => StringText .reader ds k) (readString cs) := by
  cases h : readString cs with
  | ok read => exact exists_stringText h
  | error fault =>
    cases fault with
    | malformed reason rest => trivial
    | tooManyDigits n =>
      exact absurd (map_eq_error_iff.1 h) stringBody_ne_tooManyDigits

theorem justified_number (cs : List Char) :
    Justified cs (fun v => Taken (.value v)) (readNumber cs) := by
  cases h : readNumber cs with
  | ok read =>
    obtain ⟨v, rest⟩ := read
    obtain ⟨t, hcs, rfl, hsize⟩ := exists_number h
    exact ⟨t.chars, hcs, .number t hsize⟩
  | error fault =>
    cases fault with
    | malformed reason rest => trivial
    | tooManyDigits n =>
      obtain ⟨hn, ds, hds, hlength, hdigits⟩ := tooManyDigits_number h
      exact ⟨hn, ds, hds, hlength, hdigits.2⟩

/-! ### Values -/

section Values

variable (fuel : Nat)

def ValuesJustified : Prop :=
  ∀ cs, Justified cs (fun v => Taken (.value v)) (readValue fuel cs)

def ItemsJustified : Prop :=
  ∀ cs, Justified cs (fun vs ds => ∃ part, ds = part ++ [']'] ∧ Taken (.items vs) part)
    (readItems fuel cs)

def MembersJustified : Prop :=
  ∀ done cs, Justified cs (fun es ds => ∃ part ms, ds = part ++ ['\x7d'] ∧
    es = Keyed.overlay done ms ∧ Taken (.members ms) part) (readMembers fuel done cs)

variable {fuel}

theorem justified_values (hitems : ItemsJustified fuel) (hmembers : MembersJustified fuel) :
    ValuesJustified (fuel + 1) := by
  intro cs
  unfold readValue
  split
  · exact (justified_string _).map fun k ds hk => .string hk
  · rename_i rest
    split
    · rename_i more hmore
      obtain ⟨ws, hw, rfl⟩ := exists_blank_of hmore
      exact ⟨'\x7b' :: ws ++ ['\x7d'], by simp, .emptyObject hw⟩
    · obtain ⟨ws, hw, hrest⟩ := exists_blank rest
      have hread := (hmembers [] (skipSpace rest)).within ('\x7b' :: ws) (q := fun es =>
        Taken (.value (.dict es))) (by
          rintro _ _ ⟨part, ms, rfl, rfl, hpart⟩
          rw [← List.append_assoc]
          exact .object hw hpart)
      rw [List.cons_append, ← hrest] at hread
      exact hread.map fun es ds h => h
  · rename_i rest
    split
    · rename_i more hmore
      obtain ⟨ws, hw, rfl⟩ := exists_blank_of hmore
      exact ⟨'[' :: ws ++ [']'], by simp, .emptyArray hw⟩
    · obtain ⟨ws, hw, hrest⟩ := exists_blank rest
      have hread := (hitems (skipSpace rest)).within ('[' :: ws) (q := fun vs =>
        Taken (.value (.list vs))) (by
          rintro _ _ ⟨part, rfl, hpart⟩
          rw [← List.append_assoc]
          exact .array hw hpart)
      rw [List.cons_append, ← hrest] at hread
      exact hread.map fun es ds h => h
  · split
    · rename_i w v hfind
      have hprefix : w.isPrefixOf cs :=
        List.find?_some (p := fun word : List Char × Value => word.1.isPrefixOf cs) hfind
      obtain ⟨tail, rfl⟩ := List.isPrefixOf_iff_prefix.1 hprefix
      exact ⟨w, by simp, .word (List.mem_of_find?_eq_some hfind)⟩
    · exact justified_number cs

theorem justified_items (hvalues : ValuesJustified fuel) (hitems : ItemsJustified fuel) :
    ItemsJustified (fuel + 1) := by
  intro cs
  unfold readItems
  refine (hvalues cs).bind ?_
  rintro v ds rest rfl hv
  dsimp only
  split
  · rename_i more hmore
    obtain ⟨ws, hw, rfl⟩ := exists_blank_of hmore
    exact ⟨ds ++ ws ++ [']'], by simp, ds ++ ws, rfl, .item hv hw⟩
  · rename_i more hmore
    obtain ⟨ws, hw, rfl⟩ := exists_blank_of hmore
    obtain ⟨ws₂, hw₂, hrest⟩ := exists_blank more
    have hread := (hitems (skipSpace more)).within (ds ++ ws ++ ',' :: ws₂)
      (q := fun vs => fun es => ∃ part, es = part ++ [']'] ∧ Taken (.items (v :: vs)) part) (by
        rintro vs _ ⟨part, rfl, hpart⟩
        exact ⟨_, (List.append_assoc _ _ _).symm, .items hv hw hw₂ hpart⟩)
    have htext : ds ++ ws ++ ',' :: ws₂ ++ skipSpace more = ds ++ (ws ++ ',' :: more) := by
      rw [List.append_assoc, List.cons_append, ← hrest, List.append_assoc]
    rw [htext] at hread
    refine hread.bind ?_
    rintro vs es rest hcs hpart
    exact ⟨es, hcs, hpart⟩
  · trivial

theorem justified_members (hvalues : ValuesJustified fuel) (hmembers : MembersJustified fuel) :
    MembersJustified (fuel + 1) := by
  intro done cs
  unfold readMembers
  split
  · rename_i tail
    refine (justified_string tail).bind ?_
    rintro k ks rest htail hk
    dsimp only
    split
    · rename_i more hmore
      obtain ⟨ws, hw, rfl⟩ := exists_blank_of hmore
      obtain ⟨ws₂, hw₂, hskip⟩ := exists_blank more
      let before := ks ++ ws ++ ':' :: ws₂
      have htext : before ++ skipSpace more = ks ++ (ws ++ ':' :: more) := by
        rw [List.append_assoc, List.cons_append, ← hskip, List.append_assoc]
      rw [htail, ← htext]
      have hvalue := (hvalues (skipSpace more)).within before
        (q := fun v ds => ∃ part, ds = before ++ part ∧ Taken (.value v) part)
        fun v part hv => ⟨part, rfl, hv⟩
      refine hvalue.bind ?_
      rintro v _ rest htext' ⟨part, rfl, hv⟩
      rw [htext']
      dsimp only
      split
      · rename_i last hlast
        obtain ⟨ws₃, hw₃, rfl⟩ := exists_blank_of hlast
        exact ⟨before ++ part ++ ws₃ ++ ['\x7d'], by simp, before ++ part ++ ws₃,
          [(.str k, v)], rfl, rfl, .member hk hw hw₂ hv hw₃⟩
      · rename_i last hlast
        obtain ⟨ws₃, hw₃, rfl⟩ := exists_blank_of hlast
        obtain ⟨ws₄, hw₄, hskip₄⟩ := exists_blank last
        have hmore := (hmembers (Keyed.put done (.str k) v) (skipSpace last)).within
          (before ++ part ++ ws₃ ++ ',' :: ws₄) (q := fun es ds => ∃ part ms,
            ds = part ++ ['\x7d'] ∧ es = Keyed.overlay done ms ∧ Taken (.members ms) part) (by
              rintro _ _ ⟨part', ms, rfl, rfl, hms⟩
              exact ⟨_, (.str k, v) :: ms, (List.append_assoc _ _ _).symm, rfl,
                .members hk hw hw₂ hv hw₃ hw₄ hms⟩)
        have htext₄ : before ++ part ++ ws₃ ++ ',' :: ws₄ ++ skipSpace last =
            before ++ part ++ (ws₃ ++ ',' :: last) := by
          rw [List.append_assoc, List.cons_append, ← hskip₄, List.append_assoc]
        rw [htext₄] at hmore
        exact hmore
      · trivial
    · trivial
  · trivial

end Values

/-- The reader takes the parts that it reads. -/
theorem justified (fuel : Nat) :
    ValuesJustified fuel ∧ ItemsJustified fuel ∧ MembersJustified fuel := by
  induction fuel with
  | zero => exact ⟨fun _ => trivial, fun _ => trivial, fun _ _ => trivial⟩
  | succ fuel ih =>
    obtain ⟨hvalues, hitems, hmembers⟩ := ih
    exact ⟨justified_values hitems hmembers, justified_items hvalues hitems,
      justified_members hvalues hmembers⟩

theorem read_eq (cs : List Char) :
    read cs = readUnmarked cs ∨ read cs = .error (.malformed .byteOrderMark cs) := by
  unfold read
  split
  · split
    · exact .inr rfl
    · exact .inl rfl
  · exact .inl rfl

/-- The reader reads no other texts than those of the words it knows. -/
theorem isTextWith_of_read {cs : List Char} {v : Value} (h : read cs = .ok v) :
    IsTextWith words .reader cs v := by
  obtain hread | hread := read_eq cs
  · obtain ⟨ws, hw, hskip⟩ := exists_blank cs
    obtain ⟨⟨v', rest⟩, hvalue, hend⟩ := bind_eq_ok_iff.1 (hread.symm.trans h)
    have htaken := (justified (cs.length + 1)).1 (skipSpace cs)
    rw [hvalue] at htaken
    obtain ⟨ds, hcs, hds⟩ := htaken
    dsimp only at hend
    split at hend
    · rename_i hrest
      cases hend
      obtain ⟨ws₂, hw₂, hblank⟩ := exists_blank_of hrest
      refine ⟨ws, ds, ws₂, ?_, hw, hw₂, hds⟩
      rw [hskip, hcs, hblank]
      simp
    · cases hend
  · cases hread.symm.trans h

/-- The texts that the reader reads are those of the words it knows. -/
theorem read_eq_ok_iff {cs : List Char} {v : Value} :
    read cs = .ok v ↔ IsTextWith words .reader cs v :=
  ⟨isTextWith_of_read, IsTextWith.read⟩

/-- Digits are too many for the reader only where it meets that many. -/
theorem longDigits_of_read {cs : List Char} {n : Nat} (h : read cs = .error (.tooManyDigits n)) :
    LongDigits n cs := by
  obtain hread | hread := read_eq cs
  · obtain ⟨ws, -, hskip⟩ := exists_blank cs
    obtain hvalue | ⟨⟨_, _⟩, -, hend⟩ := bind_eq_error_iff.1 (hread.symm.trans h)
    · have hlong := (justified (cs.length + 1)).1 (skipSpace cs)
      rw [hvalue] at hlong
      rw [hskip]
      exact LongDigits.within hlong ws
    · dsimp only at hend
      split at hend <;> cases hend
  · cases hread.symm.trans h

/-- A text of nothing but digits, of which there are too many, is refused for that. -/
theorem read_digits {d : Char} {ds : List Char} (hdigits : ∀ c ∈ d :: ds, c.isDigit)
    (hzero : d ≠ '0') (hlong : digitLimit < (d :: ds).length) :
    read (d :: ds) = .error (.tooManyDigits (d :: ds).length) := by
  let t : NumberText := ⟨false, d :: ds, none, none, ⟨by simp, hdigits⟩,
    fun hhead => absurd (Option.some.inj hhead) hzero, by simp⟩
  have hchars : t.chars ++ [] = d :: ds := by simp [t, NumberText.chars, NumberText.fraction,
    NumberText.exponent]
  have hnumber : readNumber (d :: ds) = .error (.tooManyDigits (d :: ds).length) := by
    have hsign : splitSign (d :: ds) = (false, d :: ds) := by simpa [t] using t.read_sign []
    have hnone : NoDigit [] := by simp [NoDigit]
    have hwhole : wholeDigits (d :: ds) = d :: ds := by simpa [t] using t.read_whole hnone
    have hrest : (d :: ds).drop (d :: ds).length = [] := List.drop_length
    rw [readNumber]
    simp only [hsign, hwhole, hrest]
    exact if_pos hlong
  obtain ⟨hspace, -, hmark⟩ := startsValue_digit (hdigits d List.mem_cons_self)
  have hskip : skipSpace (d :: ds) = d :: ds := by simp [skipSpace, hspace]
  have hvalue : ∀ fuel, readValue (fuel + 1) (d :: ds) = readNumber (d :: ds) := by
    refine readValue_number (hchars ▸ find?_words_number t []) ?_
    rintro c ⟨⟩
    have hdigit : d.isDigit := hdigits d List.mem_cons_self
    refine ⟨?_, ?_, ?_⟩ <;> rintro rfl <;> exact absurd hdigit (by decide)
  rw [read, if_neg hmark, readUnmarked, hskip, hvalue, hnumber]
  rfl

end Json
end CheckedActions
