import CheckedActions.Cli.JsonParameter
import CheckedActions.Proofs.BareTexts
import CheckedActions.Proofs.JsonAcceptance
import CheckedActions.Proofs.SurrogatePairs

/-!
Objects as parameters. The texts that are taken are those of the grammar with an object as their
value, and besides them the ones that write numbers which are not finite as words. All others are
refused as bad parameters, but for texts with more digits in a row than are read. What is read of a
text with a surrogate on its own stands for nothing, as that is in no text; whether it is taken does
not depend on that.
-/

namespace CheckedActions
namespace Json

/-! ### Texts with words of their own -/

/-- A word of the reader is one of the grammar, or has a letter that no JSON text has there. -/
theorem writes_or_breaks_word {l : Latitude} {w : List Char} {v : Value} (h : (w, v) ∈ words) :
    Writes grammarWords l w (.value v) ∨ Breaks w := by
  simp only [words, List.mem_cons, List.not_mem_nil, or_false, Prod.mk.injEq] at h
  obtain ⟨rfl, rfl⟩ | ⟨rfl, rfl⟩ | ⟨rfl, rfl⟩ | ⟨rfl, rfl⟩ | ⟨rfl, rfl⟩ | ⟨rfl, rfl⟩ := h
  · exact .inl .null
  · exact .inl .true
  · exact .inl .false
  · exact .inr rfl
  · exact .inr rfl
  · exact .inr rfl

theorem colon_bare {ws : List Char} (hw : Blank ws) : Bare (':' :: ws) :=
  bare_cons (by decide) hw.bare

/-- What the reader takes beyond the grammar shows outside of the strings. -/
theorem Writes.grammar_or_breaks {l : Latitude} {cs : List Char} {p : Part}
    (h : Writes words l cs p) : Writes grammarWords l cs p ∨ Breaks cs := by
  induction h with
  | word hw => exact writes_or_breaks_word hw
  | number t hs => exact .inl (.number t hs)
  | string hs => exact .inl (.string hs)
  | emptyArray hw => exact .inl (.emptyArray hw)
  | array hw _ ih =>
    rcases ih with h | h
    · exact .inl (.array hw h)
    · exact .inr (((bare_cons (by decide) hw.bare).breaks h).append _)
  | emptyObject hw => exact .inl (.emptyObject hw)
  | object hw _ ih =>
    rcases ih with h | h
    · exact .inl (.object hw h)
    · exact .inr (((bare_cons (by decide) hw.bare).breaks h).append _)
  | item _ hw ih =>
    rcases ih with h | h
    · exact .inl (.item h hw)
    · exact .inr (h.append _)
  | items _ hw hw₂ _ ih ihs =>
    rcases ih with h | h
    · rcases ihs with hs | hs
      · exact .inl (.items h hw hw₂ hs)
      · exact .inr (((h.bare.append hw.bare).append (bare_cons (by decide) hw₂.bare)).breaks hs)
    · exact .inr (((h.append _).append _).append _)
  | member hk hw hw₂ _ hw₃ ih =>
    rcases ih with h | h
    · exact .inl (.member hk hw hw₂ h hw₃)
    · have hbefore := (hk.bare.append hw.bare).append (colon_bare hw₂)
      exact .inr ((hbefore.breaks h).append _)
  | members hk hw hw₂ _ hw₃ hw₄ _ ih ihs =>
    have hbefore := (hk.bare.append hw.bare).append (colon_bare hw₂)
    rcases ih with h | h
    · rcases ihs with hs | hs
      · exact .inl (.members hk hw hw₂ h hw₃ hw₄ hs)
      · have hmember := (hbefore.append h.bare).append hw₃.bare
        exact .inr ((hmember.append (bare_cons (by decide) hw₄.bare)).breaks hs)
    · exact .inr ((((hbefore.breaks h).append _).append _).append _)

theorem IsTextWith.isText_or_breaks {l : Latitude} {cs : List Char} {v : Value}
    (h : IsTextWith words l cs v) : IsText l cs v ∨ Breaks cs := by
  obtain ⟨ws, ds, ws₂, rfl, hw, hw₂, hs⟩ := h
  rcases hs.grammar_or_breaks with h | h
  · exact .inl ⟨ws, ds, ws₂, rfl, hw, hw₂, h⟩
  · exact .inr ((hw.bare.breaks h).append _)

/-! ### Texts with few digits in a row -/

/-- What is let in of strings does not matter to the reader. -/
theorem StringText.read_latitude {l : Latitude} {cs : List Char} {s : String}
    (h : StringText l cs s) : StringText .reader cs s := by
  obtain ⟨body, us, hbody, -, hcs, hs⟩ := h
  exact ⟨body, us, hbody, .inl trivial, hcs, hs⟩

theorem LongDigits.mono {n : Nat} {cs ds : List Char} (h : LongDigits n cs) (hi : cs <:+: ds) :
    LongDigits n ds := by
  obtain ⟨hn, run, hrun, hlength, hdigits⟩ := h
  exact ⟨hn, run, hrun.trans hi, hlength, hdigits⟩

/-- A text of the grammar without many digits in a row has no whole number of that many. -/
theorem Writes.short {l : Latitude} {cs : List Char} {p : Part} (h : Writes grammarWords l cs p)
    (hshort : ∀ n, ¬ LongDigits n cs) : Writes grammarWords .reader cs p := by
  induction h with
  | word h => exact .word h
  | number t _ =>
    refine .number t fun _ => Nat.not_lt.1 fun hlong => hshort t.whole.length ⟨hlong, t.whole, ?_⟩
    exact ⟨⟨if t.negative then ['-'] else [], t.fraction ++ t.exponent, by simp [NumberText.chars]⟩,
      rfl, t.whole_ok.2⟩
  | string h => exact .string h.read_latitude
  | emptyArray hw => exact .emptyArray hw
  | @array ws cs vs hw _ ih =>
    have hpart : cs <:+: '[' :: ws ++ cs ++ [']'] := ⟨_, _, rfl⟩
    exact .array hw (ih fun n hn => hshort n (hn.mono hpart))
  | emptyObject hw => exact .emptyObject hw
  | @object ws cs ms hw _ ih =>
    have hpart : cs <:+: '\x7b' :: ws ++ cs ++ ['\x7d'] := ⟨_, _, rfl⟩
    exact .object hw (ih fun n hn => hshort n (hn.mono hpart))
  | @item cs v ws _ hw ih =>
    have hpart : cs <:+: cs ++ ws := (List.prefix_append cs ws).isInfix
    exact .item (ih fun n hn => hshort n (hn.mono hpart)) hw
  | @items cs v ws ws₂ ds vs _ hw hw₂ _ ih ihs =>
    have hpart : cs <:+: cs ++ ws ++ ',' :: ws₂ ++ ds := ⟨[], ws ++ ',' :: ws₂ ++ ds, by simp⟩
    have hrest : ds <:+: cs ++ ws ++ ',' :: ws₂ ++ ds := (List.suffix_append _ ds).isInfix
    exact .items (ih fun n hn => hshort n (hn.mono hpart)) hw hw₂
      (ihs fun n hn => hshort n (hn.mono hrest))
  | @member ks k ws ws₂ cs v ws₃ hk hw hw₂ _ hw₃ ih =>
    have hpart : cs <:+: ks ++ ws ++ ':' :: ws₂ ++ cs ++ ws₃ := ⟨_, _, rfl⟩
    exact .member hk.read_latitude hw hw₂ (ih fun n hn => hshort n (hn.mono hpart)) hw₃
  | @members ks k ws ws₂ cs v ws₃ ws₄ ds ms hk hw hw₂ _ hw₃ hw₄ _ ih ihs =>
    have hpart : cs <:+: ks ++ ws ++ ':' :: ws₂ ++ cs ++ ws₃ ++ ',' :: ws₄ ++ ds :=
      ⟨ks ++ ws ++ ':' :: ws₂, ws₃ ++ ',' :: ws₄ ++ ds, by simp⟩
    have hrest : ds <:+: ks ++ ws ++ ':' :: ws₂ ++ cs ++ ws₃ ++ ',' :: ws₄ ++ ds :=
      (List.suffix_append _ ds).isInfix
    exact .members hk.read_latitude hw hw₂ (ih fun n hn => hshort n (hn.mono hpart)) hw₃ hw₄
      (ihs fun n hn => hshort n (hn.mono hrest))

theorem IsText.short {l : Latitude} {cs : List Char} {v : Value} (h : IsText l cs v)
    (hshort : ∀ n, ¬ LongDigits n cs) : IsText .reader cs v := by
  obtain ⟨ws, ds, ws₂, rfl, hw, hw₂, hs⟩ := h
  exact ⟨ws, ds, ws₂, rfl, hw, hw₂, hs.short fun n hn => hshort n (hn.mono ⟨ws, ws₂, rfl⟩)⟩

/-- Of what the reader takes, the JSON texts are those without the letters outside of strings. -/
theorem IsTextWith.isText_iff {l : Latitude} {cs : List Char} {v : Value}
    (h : IsTextWith words l cs v) : (∃ w, IsText .grammar cs w) ↔ ¬ Breaks cs := by
  constructor
  · rintro ⟨w, hw⟩
    exact hw.bare.not_breaks
  · intro hbare
    have htext := h.isText_or_breaks.resolve_right hbare
    exact ⟨v, htext.mono (fun _ => id) l.le_grammar⟩

end Json

namespace Cli

open Json

theorem objectOfText_eq_ok_iff {text : String} {v : Value} :
    objectOfText text = .ok v ↔
      (∃ es, v = .dict es) ∧ IsTextWith words .reader text.toList v := by
  rw [← read_eq_ok_iff, objectOfText]
  constructor
  · intro h
    unfold objectOf at h
    split at h
    · rename_i es hread
      cases h
      exact ⟨⟨es, rfl⟩, hread⟩
    · cases h
    · cases h
    · cases h
  · rintro ⟨⟨es, rfl⟩, hread⟩
    rw [hread, objectOf]

/-- If the surrogates of a text are paired, it is taken as what the exact grammar says. -/
theorem objectOfText_eq_ok_iff_of_paired {text : String} (hp : PairsSurrogates text.toList)
    {v : Value} :
    objectOfText text = .ok v ↔
      (∃ es, v = .dict es) ∧ IsTextWith words .short text.toList v := by
  rw [objectOfText_eq_ok_iff]
  exact and_congr_right fun _ =>
    ⟨fun h => h.paired hp, fun h => h.mono (fun _ => id) Latitude.short_le_reader⟩

theorem objectOfText_eq_error {text : String} {f : Failure} (h : objectOfText text = .error f) :
    (∃ reason, f = .badParameter reason) ∨
      ∃ n, f = .tooManyDigits n ∧ LongDigits n text.toList := by
  unfold objectOfText objectOf at h
  split at h
  · cases h
  · cases h
    exact .inl ⟨_, rfl⟩
  · cases h
    exact .inl ⟨_, rfl⟩
  · rename_i n hread
    cases h
    exact .inr ⟨n, rfl, longDigits_of_read hread⟩

/-- A whole number of too many digits is no bad parameter. -/
theorem objectOfText_ones {n : Nat} (h : digitLimit < n) :
    objectOfText (String.ofList (List.replicate n '1')) = .error (.tooManyDigits n) := by
  obtain ⟨k, rfl⟩ : ∃ k, n = k + 1 := ⟨n - 1, by omega⟩
  have hdigits : ∀ c ∈ '1' :: List.replicate k '1', c.isDigit := by
    intro c hc
    rw [← List.replicate_succ] at hc
    rw [List.eq_of_mem_replicate hc]
    rfl
  have hread := read_digits hdigits (by decide) (by simpa using h)
  rw [objectOfText, String.toList_ofList, List.replicate_succ, hread, objectOf]
  simp

/-- The outcome for every text. What is taken are objects as the texts of the grammar write them,
and the value is what the text writes if no surrogate in it stands on its own. A text that is taken
is JSON unless it has an `N` or an `I` outside of its strings. Whatever is not taken is a bad
parameter, or has more digits in a row than are read. -/
theorem objectOfText_outcome (text : String) :
    ((∃ v, objectOfText text = .ok v) ↔
      ∃ es, IsTextWith words .reader text.toList (.dict es)) ∧
    (PairsSurrogates text.toList → ∀ v, objectOfText text = .ok v ↔
      (∃ es, v = .dict es) ∧ IsTextWith words .short text.toList v) ∧
    (∀ v, objectOfText text = .ok v →
      ((∃ w, IsText .grammar text.toList w) ↔ ¬ Breaks text.toList)) ∧
    (∀ f, objectOfText text = .error f → (∃ reason, f = .badParameter reason) ∨
      ∃ n, f = .tooManyDigits n ∧ LongDigits n text.toList) ∧
    ((∀ n, ¬ LongDigits n text.toList) →
      (∀ es, IsText .exact text.toList (.dict es) → objectOfText text = .ok (.dict es)) ∧
      ((∃ es, IsText .grammar text.toList (.dict es)) → ∃ v, objectOfText text = .ok v) ∧
      (¬ Breaks text.toList → (¬ ∃ es, IsText .grammar text.toList (.dict es)) →
        ∃ reason, objectOfText text = .error (.badParameter reason))) := by
  refine ⟨?_, fun hp v => objectOfText_eq_ok_iff_of_paired hp, ?_, fun f => objectOfText_eq_error,
    ?_⟩
  · simp only [objectOfText_eq_ok_iff]
    exact ⟨fun ⟨_, ⟨es, hes⟩, htext⟩ => ⟨es, hes ▸ htext⟩, fun ⟨es, htext⟩ => ⟨_, ⟨es, rfl⟩, htext⟩⟩
  · intro v h
    exact (objectOfText_eq_ok_iff.1 h).2.isText_iff
  · intro hshort
    have htaken : ∀ {l : Latitude} {es : Entries}, IsText l text.toList (.dict es) →
        objectOfText text = .ok (.dict es) := fun htext =>
      objectOfText_eq_ok_iff.2
        ⟨⟨_, rfl⟩, (htext.short hshort).mono grammarWords_subset (Latitude.le_refl _)⟩
    refine ⟨fun es htext => htaken htext, fun ⟨es, htext⟩ => ⟨_, htaken htext⟩, ?_⟩
    intro hbare hnone
    cases h : objectOfText text with
    | ok v =>
      obtain ⟨⟨es, rfl⟩, htext⟩ := objectOfText_eq_ok_iff.1 h
      have hgrammar := htext.isText_or_breaks.resolve_right hbare
      exact absurd ⟨es, hgrammar.mono (fun _ => id) (Latitude.le_grammar _)⟩ hnone
    | error f =>
      obtain ⟨reason, rfl⟩ | ⟨n, -, hlong⟩ := objectOfText_eq_error h
      · exact ⟨reason, rfl⟩
      · exact absurd hlong (hshort n)

/-- An object with no number in it, written as a word, is taken, and its text is no JSON text. -/
theorem nan_taken :
    ¬ ∀ text : String,
      ((∃ v, objectOfText text = .ok v) ↔ ∃ es, IsText .grammar text.toList (.dict es)) ∧
      ((¬ ∃ es, IsText .grammar text.toList (.dict es)) →
        ∃ reason, objectOfText text = .error (.badParameter reason)) := by
  intro h
  have hblank : Blank [] := nofun
  have hspace : Blank [' '] := by simp [Blank]
  have hname : StringText .reader "\"a\"".toList "a" :=
    ⟨['a'], [.char 'a'], .plain (by decide) (by decide) (by decide) .nil, .inl trivial, rfl, rfl⟩
  have hnan : Writes words .reader "NaN".toList (.value (.float .nan)) :=
    .word (by simp [words])
  have hobject := Writes.object hblank (.member hname hblank hspace hnan hblank)
  have htaken : objectOfText "\x7b\"a\": NaN\x7d" = .ok (.dict _) :=
    objectOfText_eq_ok_iff.2 ⟨⟨_, rfl⟩, [], _, [], rfl, hblank, hblank, hobject⟩
  obtain ⟨es, htext⟩ := (h _).1.1 ⟨_, htaken⟩
  exact htext.bare.not_breaks rfl

end Cli
end CheckedActions
