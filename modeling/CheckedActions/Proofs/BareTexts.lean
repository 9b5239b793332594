import CheckedActions.Proofs.DocumentTexts

/-!
What stands outside of strings. No JSON text has an `N` or an `I` there. A result with a number that
is not finite is printed with one of them, and so its text is no JSON text.
-/

namespace CheckedActions
namespace Json

/-- Where in a text a reader is who looks for strings. -/
inductive Place where
  | outside
  | inside
  | escaped

/-- The place behind a character. Letters that no JSON text has outside of strings lead nowhere. -/
def Place.after? (c : Char) : Place → Option Place
  | outside => if c = '"' then some inside else if c = 'N' ∨ c = 'I' then none else some outside
  | inside => if c = '"' then some outside else if c = '\\' then some escaped else some inside
  | escaped => some inside

/-- The place behind a text. -/
def scan (p : Place) (cs : List Char) : Option Place := cs.foldlM (fun p c => p.after? c) p

theorem scan_append (p : Place) (cs ds : List Char) :
    scan p (cs ++ ds) = (scan p cs).bind fun q => scan q ds := List.foldlM_append

theorem scan_cons (p : Place) (c : Char) (cs : List Char) :
    scan p (c :: cs) = (p.after? c).bind fun q => scan q cs := List.foldlM_cons

/-- The text has whole strings, and none of the letters outside of them. -/
def Bare (cs : List Char) : Prop := scan .outside cs = some .outside

/-- The text has one of the letters outside of its strings. -/
def Breaks (cs : List Char) : Prop := scan .outside cs = none

theorem bare_nil : Bare [] := rfl

theorem Bare.append {cs ds : List Char} (h : Bare cs) (h' : Bare ds) : Bare (cs ++ ds) := by
  rw [Bare, scan_append, h, Option.bind_some, h']

theorem bare_cons {c : Char} (h : c ≠ '"' ∧ c ≠ 'N' ∧ c ≠ 'I') {cs : List Char} (hcs : Bare cs) :
    Bare (c :: cs) := by
  rw [Bare, scan_cons, Place.after?, if_neg h.1, if_neg (by simp [h.2]), Option.bind_some, hcs]

theorem bare_of_forall {cs : List Char} (h : ∀ c ∈ cs, c ≠ '"' ∧ c ≠ 'N' ∧ c ≠ 'I') : Bare cs := by
  induction cs with
  | nil => exact bare_nil
  | cons c cs ih =>
    exact bare_cons (h c List.mem_cons_self) (ih fun d hd => h d (List.mem_cons_of_mem c hd))

theorem Breaks.append {cs : List Char} (h : Breaks cs) (ds : List Char) : Breaks (cs ++ ds) := by
  rw [Breaks, scan_append, h, Option.bind_none]

theorem Bare.breaks {cs ds : List Char} (h : Bare cs) (h' : Breaks ds) : Breaks (cs ++ ds) := by
  rw [Breaks, scan_append, h, Option.bind_some, h']

theorem Bare.not_breaks {cs : List Char} (h : Bare cs) : ¬ Breaks cs := by
  rw [Breaks, h]
  nofun

/-- Texts with separators between them break off at the first one that does. -/
theorem breaks_intercalate {sep : List Char} (hsep : Bare sep) {texts : List (List Char)}
    (h : ∀ cs ∈ texts, Bare cs ∨ Breaks cs) (hb : ∃ cs ∈ texts, Breaks cs) :
    Breaks (sep.intercalate texts) := by
  induction texts with
  | nil => exact absurd hb (by simp)
  | cons cs texts ih =>
    cases texts with
    | nil =>
      rw [List.intercalate_singleton]
      simpa using hb
    | cons ds texts =>
      have hrest := ih (fun es he => h es (List.mem_cons_of_mem cs he))
      rw [List.intercalate_cons_cons, List.append_assoc]
      rcases h cs List.mem_cons_self with hbare | hbreaks
      · have hlater : ∃ es ∈ ds :: texts, Breaks es := by
          obtain ⟨es, hes, hbreaks⟩ := hb
          refine ⟨es, (List.mem_cons.1 hes).resolve_left ?_, hbreaks⟩
          rintro rfl
          exact hbare.not_breaks hbreaks
        exact hbare.breaks (hsep.breaks (hrest hlater))
      · exact hbreaks.append _

/-! ### Texts of the grammar -/

theorem Blank.bare {ws : List Char} (h : Blank ws) : Bare ws := by
  refine bare_of_forall fun c hc => ?_
  rcases h c hc with rfl | rfl | rfl | rfl <;> decide

theorem NumberText.bare (t : NumberText) : Bare t.chars := by
  refine bare_of_forall fun c hc => ?_
  have hmem := t.chars_mem c hc
  refine ⟨?_, ?_, ?_⟩ <;> rintro rfl <;> revert hmem <;> decide

theorem hexValue?_inside {c : Char} {n : Nat} (h : hexValue? c = some n) :
    Place.after? c .inside = some .inside := by
  have hne : c ≠ '"' ∧ c ≠ '\\' := by
    constructor <;> rintro rfl <;> nomatch h
  rw [Place.after?, if_neg hne.1, if_neg hne.2]

theorem Spells.scan {cs : List Char} {us : List CodeUnit} (h : Spells cs us) :
    scan .inside cs = some .inside := by
  induction h with
  | nil => rfl
  | plain _ hq hb _ ih => rw [scan_cons, Place.after?, if_neg hq, if_neg hb, Option.bind_some, ih]
  | short _ _ ih => exact ih
  | @hex a b c d n cs us hn _ ih =>
    simp only [fourHex?, bind, Option.bind_eq_some_iff] at hn
    obtain ⟨_, ha, _, hb, _, hc, _, hd, -⟩ := hn
    have hdigits : Json.scan .inside (a :: b :: c :: d :: cs) = some .inside := by
      simp only [scan_cons, hexValue?_inside ha, hexValue?_inside hb, hexValue?_inside hc,
        hexValue?_inside hd, Option.bind_some, ih]
    exact hdigits

theorem StringText.bare {l : Latitude} {cs : List Char} {s : String} (h : StringText l cs s) :
    Bare cs := by
  obtain ⟨body, us, hbody, -, rfl, -⟩ := h
  have hstart : Json.scan .outside ('"' :: body) = some .inside := hbody.scan
  rw [Bare, scan_append, hstart]
  rfl

theorem bare_grammarWord {w : List Char} {v : Value} (h : (w, v) ∈ grammarWords) : Bare w := by
  simp only [grammarWords, List.mem_cons, List.not_mem_nil, or_false, Prod.mk.injEq] at h
  obtain ⟨rfl, -⟩ | ⟨rfl, -⟩ | ⟨rfl, -⟩ := h <;> rfl

theorem Writes.bare {l : Latitude} {cs : List Char} {p : Part} (h : Writes grammarWords l cs p) :
    Bare cs := by
  induction h with
  | word h => exact bare_grammarWord h
  | number t _ => exact t.bare
  | string hs => exact hs.bare
  | emptyArray hw => exact (bare_cons (by decide) hw.bare).append rfl
  | array hw _ ih => exact ((bare_cons (by decide) hw.bare).append ih).append rfl
  | emptyObject hw => exact (bare_cons (by decide) hw.bare).append rfl
  | object hw _ ih => exact ((bare_cons (by decide) hw.bare).append ih).append rfl
  | item _ hw ih => exact ih.append hw.bare
  | items _ hw hw₂ _ ih ihs =>
    exact ((ih.append hw.bare).append (bare_cons (by decide) hw₂.bare)).append ihs
  | member hk hw hw₂ _ hw₃ ih =>
    exact (((hk.bare.append hw.bare).append (bare_cons (by decide) hw₂.bare)).append ih).append
      hw₃.bare
  | members hk hw hw₂ _ hw₃ hw₄ _ ih ihs =>
    exact (((((hk.bare.append hw.bare).append (bare_cons (by decide) hw₂.bare)).append ih).append
      hw₃.bare).append (bare_cons (by decide) hw₄.bare)).append ihs

theorem IsText.bare {l : Latitude} {cs : List Char} {v : Value} (h : IsText l cs v) : Bare cs := by
  obtain ⟨ws, ds, ws₂, rfl, hw, hw₂, h⟩ := h
  exact (hw.bare.append h.bare).append hw₂.bare

/-! ### Results with numbers that are not finite -/

namespace Document

theorem writeItems_eq_map (st : Style) (depth : Nat) (ds : List Document) :
    writeItems st depth ds = ds.map (write st depth) := by
  induction ds with
  | nil => rfl
  | cons d ds ih => rw [writeItems, ih, List.map_cons]

theorem writeMembers_eq_map (st : Style) (depth : Nat) (ms : List (String × Document)) :
    writeMembers st depth ms =
      ms.map fun m => st.quote m.1 ++ [':', ' '] ++ m.2.write st depth := by
  induction ms with
  | nil => rfl
  | cons m ms ih => rw [writeMembers, ih, List.map_cons, List.append_assoc]; rfl

/-- The document has no number that is not finite. -/
abbrev Finite : Document → Prop := Fits (fun _ => True) fun x => x.isFinite

theorem Finite.bare {d : Document} (h : d.Finite) (depth : Nat) :
    Bare (d.write Style.result depth) := by
  have hshows : d.Fits Latitude.grammar.digits Style.result.Shows :=
    h.mono (fun _ => id) fun _ => .inl
  exact (hshows.writes Style.isFaithful_result depth).bare

/-- What is put in brackets breaks off if not every item is as it should be. -/
theorem breaks_enclose {α : Type} {xs : List α} {f : α → List Char} {p : α → Prop}
    (hbare : ∀ x ∈ xs, p x → Bare (f x)) (hbreaks : ∀ x ∈ xs, ¬ p x → Breaks (f x))
    (h : ¬ ∀ x ∈ xs, p x) {left right : Char} (hl : Bare [left]) (depth : Nat) :
    Breaks (Style.result.enclose left right depth (xs.map f)) := by
  have hone : ∃ cs ∈ xs.map f, Breaks cs := by
    simp only [Classical.not_forall] at h
    obtain ⟨x, hx, hp⟩ := h
    exact ⟨f x, List.mem_map_of_mem hx, hbreaks x hx hp⟩
  have hall : ∀ cs ∈ xs.map f, Bare cs ∨ Breaks cs := List.forall_mem_map.2 fun x hx => by
    by_cases hp : p x
    · exact .inl (hbare x hx hp)
    · exact .inr (hbreaks x hx hp)
  have hne : ¬ (xs.map f).isEmpty := by
    obtain ⟨cs, hcs, -⟩ := hone
    simpa using List.ne_nil_of_mem hcs
  obtain ⟨ws, hw, hsep⟩ := Style.result.exists_separator (depth + 1)
  have hseparator : Bare (Style.result.separator (depth + 1)) := by
    rw [hsep]
    exact bare_cons (by decide) hw.bare
  have hopening : Bare ([left] ++ Style.result.newLine (depth + 1)) :=
    hl.append (Style.result.blank_newLine (depth + 1)).bare
  rw [Style.enclose, if_neg hne]
  exact ((hopening.breaks (breaks_intercalate hseparator hall hone)).append _).append _

/-- A number that is not finite is written with a letter that no JSON text has there. -/
theorem breaks_of_not_finite {sizes : Nat → Prop} {floats : Binary64 → Prop} {d : Document}
    (h : d.Fits sizes floats) (hd : ¬ d.Finite) (depth : Nat) :
    Breaks (d.write Style.result depth) := by
  induction h generalizing depth with
  | null => exact absurd .null hd
  | bool b => exact absurd (.bool b) hd
  | int _ => exact absurd (.int trivial) hd
  | text s => exact absurd (.text s) hd
  | @float x _ =>
    cases x with
    | nan => rfl
    | infinity negative => cases negative <;> rfl
    | finite => exact absurd (.float rfl) hd
  | @array ds _ ih =>
    have hbracket : Bare ['['] := rfl
    rw [write, writeItems_eq_map]
    exact breaks_enclose (fun d _ hfinite => Finite.bare hfinite _)
      (fun d hmem hnot => ih d hmem hnot _) (fun hall => hd (.array hall)) hbracket depth
  | @object ms _ ih =>
    have hname : ∀ k, Bare (Style.result.quote k ++ [':', ' ']) := fun k =>
      (stringText_quote Style.isFaithful_result.escapes .grammar k).bare.append rfl
    have hbrace : Bare ['\x7b'] := rfl
    rw [write, writeMembers_eq_map]
    exact breaks_enclose (fun m _ hfinite => (hname m.1).append (Finite.bare hfinite _))
      (fun m hmem hnot => (hname m.1).breaks (ih m hmem hnot _)) (fun hall => hd (.object hall))
      hbrace depth

/-- A result on its own is printed as a JSON text exactly if its numbers are finite. -/
theorem isText_result_iff {sizes : Nat → Prop} {floats : Binary64 → Prop} {d : Document}
    (h : d.Fits sizes floats) :
    (∃ v, IsText .grammar (d.render Style.result).toList v) ↔ d.Finite := by
  constructor
  · rintro ⟨v, hv⟩
    refine Classical.byContradiction fun hd => hv.bare.not_breaks ?_
    rw [render, String.toList_ofList]
    exact breaks_of_not_finite h hd 0
  · exact fun hd => ⟨_, (hd.mono (fun _ => id) fun _ => .inl).isText Style.isFaithful_result⟩

end Document

end Json
end CheckedActions
