import CheckedActions.Proofs.Documents
import CheckedActions.Proofs.NumberTexts
import CheckedActions.Proofs.StringTexts

/-!
Documents as JSON texts. The text of a document is one of the grammar and writes the value that the
document stands for, as long as the style has a way to write its numbers. Reports can write every
number, and results on their own only those that are finite.
-/

namespace CheckedActions
namespace Json

namespace Document

mutual
/-- The value that a document stands for. A number that is not finite is none. -/
def meaning : Document → Value
  | null => .null
  | bool b => .bool b
  | int n => .int n
  | float x => if x.isFinite then .float (reread x) else .null
  | text s => .str s
  | array ds => .list (meanings ds)
  | object ms => .dict (Keyed.ofPairs (memberMeanings ms))
termination_by structural d => d

def meanings : List Document → List Value
  | [] => []
  | d :: ds => d.meaning :: meanings ds
termination_by structural ds => ds

def memberMeanings : List (String × Document) → Entries
  | [] => []
  | (k, d) :: ms => (.str k, d.meaning) :: memberMeanings ms
termination_by structural ms => ms
end

theorem meanings_eq_map (ds : List Document) : meanings ds = ds.map meaning := by
  induction ds with
  | nil => rfl
  | cons d ds ih => rw [meanings, ih, List.map_cons]

theorem memberMeanings_eq_map (ms : List (String × Document)) :
    memberMeanings ms = ms.map fun m => (.str m.1, m.2.meaning) := by
  induction ms with
  | nil => rfl
  | cons m ms ih => rw [memberMeanings, ih, List.map_cons]

/-- The whole numbers of a document have digits of the given sizes, and its other numbers are among
those given. -/
inductive Fits (sizes : Nat → Prop) (floats : Binary64 → Prop) : Document → Prop
  | null : Fits sizes floats null
  | bool (b : Bool) : Fits sizes floats (bool b)
  | int {n : Int} (h : sizes (Nat.toDigits 10 n.natAbs).length) : Fits sizes floats (int n)
  | float {x : Binary64} (h : floats x) : Fits sizes floats (float x)
  | text (s : String) : Fits sizes floats (text s)
  | array {ds : List Document} (h : ∀ d ∈ ds, Fits sizes floats d) : Fits sizes floats (array ds)
  | object {ms : List (String × Document)} (h : ∀ m ∈ ms, Fits sizes floats m.2) :
    Fits sizes floats (object ms)

theorem Fits.mono {sizes sizes' : Nat → Prop} {floats floats' : Binary64 → Prop}
    (hs : ∀ n, sizes n → sizes' n) (hf : ∀ x, floats x → floats' x) {d : Document}
    (h : d.Fits sizes floats) : d.Fits sizes' floats' := by
  induction h with
  | null => exact .null
  | bool b => exact .bool b
  | int h => exact .int (hs _ h)
  | float h => exact .float (hf _ h)
  | text s => exact .text s
  | array _ ih => exact .array ih
  | object _ ih => exact .object ih

end Document

namespace Style

/-- Characters are escaped as the grammar asks, and whole numbers end in `.0`. -/
structure IsFaithful (st : Style) : Prop where
  escapes : ∀ c, EscapesTo (st.escape c) c
  pointZero : st.floats.pointZero

/-- The style has a way to write a number. -/
def Shows (st : Style) (x : Binary64) : Prop := x.isFinite ∨ x.write st.floats = "null"

theorem isFaithful_report : report.IsFaithful := ⟨escapesTo_escapeControls, rfl⟩

theorem isFaithful_result : result.IsFaithful := ⟨escapesTo_escapeToAscii, rfl⟩

theorem report_shows (x : Binary64) : report.Shows x := by
  cases x with
  | nan => exact .inr rfl
  | infinity negative => exact .inr (by cases negative <;> rfl)
  | finite => exact .inl rfl

theorem blank_newLine (st : Style) (depth : Nat) : Blank (st.newLine depth) := by
  unfold newLine
  split
  · intro c hc
    rcases List.mem_cons.1 hc with rfl | hc
    · simp
    · simp [(List.mem_replicate.1 hc).2]
  · exact nofun

theorem exists_separator (st : Style) (depth : Nat) :
    ∃ ws, Blank ws ∧ st.separator depth = ',' :: ws := by
  refine ⟨_, ?_, rfl⟩
  split
  · exact st.blank_newLine depth
  · simp [Blank]

end Style

variable {l : Latitude} {st : Style}

theorem writes_float (hst : st.IsFaithful) {x : Binary64} (hx : st.Shows x) :
    Writes grammarWords l (x.write st.floats).toList (.value (Document.float x).meaning) := by
  by_cases hfinite : x.isFinite
  · obtain ⟨t, hchars, hwhole, hvalue⟩ := exists_numberText hst.pointZero hfinite
    rw [Document.meaning, if_pos hfinite, ← hchars, ← hvalue]
    exact .number t fun h => absurd h hwhole
  · rw [Document.meaning, if_neg hfinite, hx.resolve_left hfinite]
    exact .null

theorem blank_nil : Blank [] := nofun

/-- Texts with separators between them are items, and a blank can follow them. -/
theorem writes_items {depth : Nat} {ds : List Document} (hne : ds ≠ [])
    (h : ∀ d ∈ ds, Writes grammarWords l (d.write st depth) (.value d.meaning)) {ws : List Char}
    (hw : Blank ws) :
    Writes grammarWords l ((st.separator depth).intercalate (Document.writeItems st depth ds) ++ ws)
      (.items (Document.meanings ds)) := by
  induction ds with
  | nil => exact absurd rfl hne
  | cons d ds ih =>
    have hd := h d List.mem_cons_self
    cases ds with
    | nil =>
      rw [Document.writeItems, Document.writeItems, List.intercalate_singleton]
      exact .item hd hw
    | cons d' ds =>
      have hrest := ih (List.cons_ne_nil d' ds) fun e he => h e (List.mem_cons_of_mem d he)
      obtain ⟨bs, hb, hseparator⟩ := st.exists_separator depth
      have hitems := Writes.items hd blank_nil hb hrest
      rw [Document.meanings]
      simpa [Document.writeItems, hseparator] using hitems

/-- Named texts with separators between them are members, and a blank can follow them. -/
theorem writes_members (hst : st.IsFaithful) {depth : Nat} {ms : List (String × Document)}
    (hne : ms ≠ []) (h : ∀ m ∈ ms, Writes grammarWords l (m.2.write st depth) (.value m.2.meaning))
    {ws : List Char} (hw : Blank ws) :
    Writes grammarWords l
      ((st.separator depth).intercalate (Document.writeMembers st depth ms) ++ ws)
      (.members (Document.memberMeanings ms)) := by
  have hspace : Blank [' '] := by simp [Blank]
  induction ms with
  | nil => exact absurd rfl hne
  | cons m ms ih =>
    obtain ⟨k, d⟩ := m
    have hd := h (k, d) List.mem_cons_self
    have hk : StringText l (st.quote k) k := stringText_quote hst.escapes l k
    cases ms with
    | nil =>
      have hmember := Writes.member hk blank_nil hspace hd hw
      rw [Document.memberMeanings, Document.memberMeanings]
      simpa [Document.writeMembers] using hmember
    | cons m' ms =>
      have hrest := ih (List.cons_ne_nil m' ms) fun e he => h e (List.mem_cons_of_mem _ he)
      obtain ⟨bs, hb, hseparator⟩ := st.exists_separator depth
      have hmembers := Writes.members hk blank_nil hspace hd blank_nil hb hrest
      rw [Document.memberMeanings]
      simpa [Document.writeMembers, hseparator] using hmembers

/-- Every document is written as a text that says what the document stands for. -/
theorem Document.Fits.writes (hst : st.IsFaithful) {d : Document} (h : d.Fits l.digits st.Shows)
    (depth : Nat) : Writes grammarWords l (d.write st depth) (.value d.meaning) := by
  induction h generalizing depth with
  | null => exact .null
  | bool b =>
    cases b with
    | false => exact .false
    | true => exact .true
  | @int n hn =>
    have hnumber : Writes grammarWords l (NumberText.ofInt n).chars _ :=
      .number (.ofInt n) fun _ => hn
    rwa [NumberText.chars_ofInt, NumberText.value_ofInt] at hnumber
  | float hx => exact writes_float hst hx
  | text s => exact .string (stringText_quote hst.escapes l s)
  | @array ds _ ih =>
    rw [Document.write, Style.enclose, Document.meaning]
    cases ds with
    | nil => exact .emptyArray blank_nil
    | cons d ds =>
      have hitems := writes_items (List.cons_ne_nil d ds) (fun e he => ih e he (depth + 1))
        (st.blank_newLine depth)
      have harray := Writes.array (st.blank_newLine (depth + 1)) hitems
      simpa [Document.writeItems] using harray
  | @object ms _ ih =>
    rw [Document.write, Style.enclose, Document.meaning]
    cases ms with
    | nil => exact .emptyObject blank_nil
    | cons m ms =>
      have hmembers := writes_members hst (List.cons_ne_nil m ms)
        (fun e he => ih e he (depth + 1)) (st.blank_newLine depth)
      have hobject := Writes.object (st.blank_newLine (depth + 1)) hmembers
      simpa [Document.writeMembers] using hobject

/-- So its rendered form is a JSON text. -/
theorem Document.Fits.isText (hst : st.IsFaithful) {d : Document} (h : d.Fits l.digits st.Shows) :
    IsText l (d.render st).toList d.meaning :=
  ⟨[], d.write st 0, [], by simp [render], blank_nil, blank_nil, h.writes hst 0⟩

end Json
end CheckedActions
