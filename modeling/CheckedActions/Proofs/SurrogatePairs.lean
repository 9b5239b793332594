import CheckedActions.Proofs.JsonReading

/-!
Texts in which no surrogate stands on its own. The strings of such a text stand for texts, and so it
is one of the exact grammar if it is one of the grammar at all. Escapes are looked for in the whole
text, as it has none outside of its strings.
-/

namespace CheckedActions
namespace Json

/-- The pieces of a text: the escapes in it with what they stand for, and all other characters as
they are. -/
def unitsOf : List Char → List CodeUnit
  | '\\' :: 'u' :: a :: b :: c :: d :: cs =>
    match fourHex? [a, b, c, d] with
    | some n => .unit n :: unitsOf cs
    | none => .char 'u' :: unitsOf (a :: b :: c :: d :: cs)
  | '\\' :: e :: cs => .char ((simpleEscape? e).getD e) :: unitsOf cs
  | c :: cs => .char c :: unitsOf cs
  | [] => []

/-- Each surrogate that the text escapes is one of a pair. -/
def PairsSurrogates (cs : List Char) : Prop := Paired (unitsOf cs)

/-- The latitude without surrogates on their own. -/
def Latitude.paired (l : Latitude) : Latitude := ⟨l.digits, False⟩

theorem paired_append_char {us vs : List CodeUnit} {c : Char} :
    Paired (us ++ .char c :: vs) ↔ Paired us ∧ Paired vs := by
  fun_induction Paired us with
  | case1 => simp [Paired]
  | case2 d us ih => simpa [Paired] using ih
  | case3 n m us hpair ih => simpa [Paired, hpair] using ih
  | case4 n m us hpair ih =>
    simp only [List.cons_append, Paired, if_neg hpair] at ih ⊢
    rw [ih, and_assoc]
  | case5 n us hnext ih =>
    cases us with
    | nil => simp [Paired]
    | cons u us =>
      cases u with
      | char d =>
        simp only [List.cons_append, Paired] at ih ⊢
        rw [ih, and_assoc]
      | unit m => exact absurd rfl (hnext m us)

theorem unitsOf_cons {c : Char} (h : c ≠ '\\') (cs : List Char) :
    unitsOf (c :: cs) = .char c :: unitsOf cs := by
  rw [unitsOf]
  · rintro _ _ _ _ _ rfl
    exact absurd rfl h
  · rintro _ _ rfl
    exact absurd rfl h

/-- Without a backslash there is no escape. -/
theorem pairsSurrogates_append {cs : List Char} (h : ∀ c ∈ cs, c ≠ '\\') (rest : List Char) :
    PairsSurrogates (cs ++ rest) ↔ PairsSurrogates rest := by
  induction cs with
  | nil => rfl
  | cons c cs ih =>
    have hrest := ih fun d hd => h d (List.mem_cons_of_mem c hd)
    unfold PairsSurrogates at hrest ⊢
    rw [List.cons_append, unitsOf_cons (h c List.mem_cons_self), Paired, hrest]

theorem pairsSurrogates_closing {c : Char} (h : c ≠ '\\') (rest : List Char) :
    PairsSurrogates ([c] ++ rest) ↔ PairsSurrogates rest :=
  pairsSurrogates_append (List.forall_mem_singleton.2 h) rest

theorem Spells.unitsOf_append {cs : List Char} {us : List CodeUnit} (h : Spells cs us)
    (rest : List Char) : unitsOf (cs ++ rest) = us ++ unitsOf rest := by
  induction h with
  | nil => rfl
  | plain _ _ hb _ ih => rw [List.cons_append, unitsOf_cons hb, ih, List.cons_append]
  | @short e c cs us he _ ih =>
    obtain ⟨hu, hescape⟩ := simpleEscape?_of_mem he
    rw [List.cons_append, List.cons_append, unitsOf, hescape, ih]
    · rfl
    · rintro _ _ _ _ _ rfl
      exact absurd rfl hu
  | @hex a b c d n cs us hn _ ih =>
    simp only [List.cons_append, unitsOf, hn, ih]

theorem StringText.paired {l : Latitude} {cs : List Char} {s : String} (h : StringText l cs s)
    {rest : List Char} (hp : PairsSurrogates (cs ++ rest)) :
    StringText l.paired cs s ∧ PairsSurrogates rest := by
  obtain ⟨body, us, hbody, -, rfl, hs⟩ := h
  have hunits : unitsOf ('"' :: body ++ ['"'] ++ rest) =
      .char '"' :: (us ++ .char '"' :: unitsOf rest) := by
    rw [List.append_assoc, List.cons_append, List.singleton_append, unitsOf_cons (by decide),
      hbody.unitsOf_append, unitsOf_cons (by decide)]
  unfold PairsSurrogates at hp ⊢
  rw [hunits, Paired, paired_append_char] at hp
  exact ⟨⟨body, us, hbody, .inr hp.1, rfl, hs⟩, hp.2⟩

/-- No word of the reader has a backslash. -/
theorem plain_word {w : List Char} {v : Value} (h : (w, v) ∈ words) : ∀ c ∈ w, c ≠ '\\' := by
  simp only [words, List.mem_cons, List.not_mem_nil, or_false, Prod.mk.injEq] at h
  obtain ⟨rfl, -⟩ | ⟨rfl, -⟩ | ⟨rfl, -⟩ | ⟨rfl, -⟩ | ⟨rfl, -⟩ | ⟨rfl, -⟩ := h <;> simp

theorem NumberText.plain (t : NumberText) : ∀ c ∈ t.chars, c ≠ '\\' := by
  rintro c hc rfl
  have hmem := t.chars_mem _ hc
  revert hmem
  decide

theorem Blank.plain {ws : List Char} (h : Blank ws) : ∀ c ∈ ws, c ≠ '\\' := by
  intro c hc
  rcases h c hc with rfl | rfl | rfl | rfl <;> decide

/-- Blanks and signs have no backslash, whatever follows them. -/
theorem pairsSurrogates_sign {c : Char} (hc : c ≠ '\\') {ws : List Char} (hw : Blank ws)
    (rest : List Char) : PairsSurrogates (c :: (ws ++ rest)) ↔ PairsSurrogates rest :=
  pairsSurrogates_append (List.forall_mem_cons.2 ⟨hc, hw.plain⟩) rest

/-- What the grammar has of a text that pairs its surrogates is exact. -/
theorem Writes.paired {l : Latitude} {cs : List Char} {p : Part} (h : Writes words l cs p)
    {rest : List Char} (hp : PairsSurrogates (cs ++ rest)) :
    Writes words l.paired cs p ∧ PairsSurrogates rest := by
  induction h generalizing rest with
  | word hw => exact ⟨.word hw, (pairsSurrogates_append (plain_word hw) rest).1 hp⟩
  | number t hs => exact ⟨.number t hs, (pairsSurrogates_append t.plain rest).1 hp⟩
  | string hs =>
    obtain ⟨hs, hrest⟩ := hs.paired hp
    exact ⟨.string hs, hrest⟩
  | @emptyArray ws hw =>
    rw [List.append_assoc, List.cons_append, pairsSurrogates_sign (by decide) hw] at hp
    exact ⟨.emptyArray hw, (pairsSurrogates_closing (by decide) rest).1 hp⟩
  | @array ws cs vs hw _ ih =>
    rw [List.append_assoc, List.append_assoc, List.cons_append,
      pairsSurrogates_sign (by decide) hw] at hp
    obtain ⟨hs, hclose⟩ := ih hp
    exact ⟨.array hw hs, (pairsSurrogates_closing (by decide) rest).1 hclose⟩
  | emptyObject hw =>
    rw [List.append_assoc, List.cons_append, pairsSurrogates_sign (by decide) hw] at hp
    exact ⟨.emptyObject hw, (pairsSurrogates_closing (by decide) rest).1 hp⟩
  | object hw _ ih =>
    rw [List.append_assoc, List.append_assoc, List.cons_append,
      pairsSurrogates_sign (by decide) hw] at hp
    obtain ⟨hs, hclose⟩ := ih hp
    exact ⟨.object hw hs, (pairsSurrogates_closing (by decide) rest).1 hclose⟩
  | item _ hw ih =>
    rw [List.append_assoc] at hp
    obtain ⟨hs, hblank⟩ := ih hp
    exact ⟨.item hs hw, (pairsSurrogates_append hw.plain rest).1 hblank⟩
  | items _ hw hw₂ _ ih ihs =>
    simp only [List.append_assoc, List.cons_append] at hp
    obtain ⟨hs, hcomma⟩ := ih hp
    rw [pairsSurrogates_append hw.plain, pairsSurrogates_sign (by decide) hw₂] at hcomma
    obtain ⟨hds, hrest⟩ := ihs hcomma
    exact ⟨.items hs hw hw₂ hds, hrest⟩
  | member hk hw hw₂ _ hw₃ ih =>
    simp only [List.append_assoc, List.cons_append] at hp
    obtain ⟨hk, hcolon⟩ := hk.paired hp
    rw [pairsSurrogates_append hw.plain, pairsSurrogates_sign (by decide) hw₂] at hcolon
    obtain ⟨hs, hblank⟩ := ih hcolon
    exact ⟨.member hk hw hw₂ hs hw₃, (pairsSurrogates_append hw₃.plain rest).1 hblank⟩
  | members hk hw hw₂ _ hw₃ hw₄ _ ih ihs =>
    simp only [List.append_assoc, List.cons_append] at hp
    obtain ⟨hk, hcolon⟩ := hk.paired hp
    rw [pairsSurrogates_append hw.plain, pairsSurrogates_sign (by decide) hw₂] at hcolon
    obtain ⟨hs, hcomma⟩ := ih hcolon
    rw [pairsSurrogates_append hw₃.plain, pairsSurrogates_sign (by decide) hw₄] at hcomma
    obtain ⟨hds, hrest⟩ := ihs hcomma
    exact ⟨.members hk hw hw₂ hs hw₃ hw₄ hds, hrest⟩

theorem IsTextWith.paired {l : Latitude} {cs : List Char} {v : Value}
    (h : IsTextWith words l cs v) (hp : PairsSurrogates cs) : IsTextWith words l.paired cs v := by
  obtain ⟨ws, ds, ws₂, rfl, hw, hw₂, hs⟩ := h
  rw [List.append_assoc, pairsSurrogates_append hw.plain] at hp
  exact ⟨ws, ds, ws₂, rfl, hw, hw₂, (hs.paired hp).1⟩

end Json
end CheckedActions
