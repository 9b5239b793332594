import CheckedActions.Json.Reader

/-!
JSON texts by their grammar, each with the value that it writes. A number without a point and an
exponent writes a whole number, and any other the nearest double. Of members with one name the last
counts. A string with a surrogate on its own is in the grammar, but stands for no text; it is
counted in or left out as is needed. The same grammar with other words than `null`, `true` and
`false` tells what readers take that know more of them.
-/

namespace CheckedActions
namespace Json

/-- What is let in beside the rules of the grammar. -/
structure Latitude where
  /-- Of how many digits whole numbers may be. -/
  digits : Nat → Prop
  /-- Whether a surrogate may be no part of a pair. -/
  alone : Prop

namespace Latitude

instance : LE Latitude := ⟨fun l m => (∀ n, l.digits n → m.digits n) ∧ (l.alone → m.alone)⟩

/-- All that the grammar has. -/
def grammar : Latitude := ⟨fun _ => True, True⟩

/-- Only strings that stand for texts. -/
def exact : Latitude := ⟨fun _ => True, False⟩

/-- Only whole numbers that are read. -/
def reader : Latitude := ⟨(· ≤ digitLimit), True⟩

/-- Only whole numbers that are read, and strings that stand for texts. -/
def short : Latitude := ⟨(· ≤ digitLimit), False⟩

theorem le_refl (l : Latitude) : l ≤ l := ⟨fun _ => id, id⟩

theorem le_grammar (l : Latitude) : l ≤ grammar := ⟨fun _ _ => trivial, fun _ => trivial⟩

theorem short_le_reader : short ≤ reader := ⟨fun _ => id, False.elim⟩

end Latitude

/-! ### Blanks and numbers -/

/-- `ws = *( %x20 / %x09 / %x0A / %x0D )` -/
def Blank (cs : List Char) : Prop := ∀ c ∈ cs, c = ' ' ∨ c = '\t' ∨ c = '\n' ∨ c = '\r'

/-- `1*DIGIT` -/
def IsDigits (cs : List Char) : Prop := cs ≠ [] ∧ ∀ c ∈ cs, c.isDigit

/-- `exp = e [ minus / plus ] 1*DIGIT` -/
structure ExponentText where
  mark : Char
  sign : List Char
  digits : List Char
  mark_ok : mark = 'e' ∨ mark = 'E'
  sign_ok : sign = [] ∨ sign = ['+'] ∨ sign = ['-']
  digits_ok : IsDigits digits

namespace ExponentText

def chars (e : ExponentText) : List Char := e.mark :: (e.sign ++ e.digits)

def value (e : ExponentText) : Int :=
  let n : Int := Decimal.natOf e.digits
  if e.sign = ['-'] then -n else n

end ExponentText

/-- `number = [ minus ] int [ frac ] [ exp ]`. The whole part begins with a zero only if it is one,
and the fraction is given by the digits behind its point. -/
structure NumberText where
  negative : Bool
  whole : List Char
  places? : Option (List Char)
  exponent? : Option ExponentText
  whole_ok : IsDigits whole
  lead_ok : whole.head? = some '0' → whole = ['0']
  places_ok : ∀ places, places? = some places → IsDigits places

namespace NumberText

/-- The number is written without a point and an exponent. -/
def IsWhole (t : NumberText) : Prop := t.places? = none ∧ t.exponent? = none

def fraction (t : NumberText) : List Char :=
  match t.places? with
  | some places => '.' :: places
  | none => []

def exponent (t : NumberText) : List Char :=
  match t.exponent? with
  | some e => e.chars
  | none => []

def chars (t : NumberText) : List Char :=
  (if t.negative then ['-'] else []) ++ t.whole ++ t.fraction ++ t.exponent

def value (t : NumberText) : Value :=
  match t.places?, t.exponent? with
  | none, none =>
    let n : Int := Decimal.natOf t.whole
    .int (if t.negative then -n else n)
  | places?, exponent? =>
    let places := places?.getD []
    let scale : Int := match exponent? with
      | some e => e.value
      | none => 0
    .float (Binary64.ofDecimal t.negative (Decimal.natOf (t.whole ++ places))
      (scale - places.length))

theorem chars_mem (t : NumberText) :
    ∀ c ∈ t.chars, c.isDigit ∨ c ∈ ['-', '+', '.', 'e', 'E'] := by
  have hdigits : ∀ {ds : List Char}, IsDigits ds →
      ∀ c ∈ ds, c.isDigit ∨ c ∈ ['-', '+', '.', 'e', 'E'] := fun h c hc => .inl (h.2 c hc)
  have hsign : ∀ c ∈ (if t.negative then ['-'] else []),
      c.isDigit ∨ c ∈ ['-', '+', '.', 'e', 'E'] := by
    split <;> simp
  have hfraction : ∀ c ∈ t.fraction, c.isDigit ∨ c ∈ ['-', '+', '.', 'e', 'E'] := by
    unfold fraction
    split
    · rename_i places hp
      exact List.forall_mem_cons.2 ⟨by decide, hdigits (t.places_ok places hp)⟩
    · exact nofun
  have hexponent : ∀ c ∈ t.exponent, c.isDigit ∨ c ∈ ['-', '+', '.', 'e', 'E'] := by
    unfold exponent
    split
    · rename_i e _
      refine List.forall_mem_cons.2 ⟨?_, List.forall_mem_append.2 ⟨?_, hdigits e.digits_ok⟩⟩
      · rcases e.mark_ok with h | h <;> rw [h] <;> decide
      · rcases e.sign_ok with h | h | h <;> simp [h]
    · exact nofun
  simp only [chars, List.forall_mem_append]
  exact ⟨⟨⟨hsign, hdigits t.whole_ok⟩, hfraction⟩, hexponent⟩

end NumberText

/-! ### Strings -/

/-- What a piece of a string stands for: a character, or a unit of 16 bits. -/
inductive CodeUnit where
  | char (c : Char)
  | unit (n : Nat)

/-- The characters of a string. Two units that are a surrogate pair are one character, and a
surrogate on its own is the replacement character. -/
def ofUnits : List CodeUnit → List Char
  | [] => []
  | .char c :: us => c :: ofUnits us
  | .unit n :: .unit m :: us =>
    if isHighSurrogate n ∧ isLowSurrogate m then
      Char.ofNat (0x10000 + (n - 0xd800) * 0x400 + (m - 0xdc00)) :: ofUnits us
    else charOf n :: ofUnits (.unit m :: us)
  | .unit n :: us => charOf n :: ofUnits us

/-- Each surrogate among the units is one of a pair. -/
def Paired : List CodeUnit → Prop
  | [] => True
  | .char _ :: us => Paired us
  | .unit n :: .unit m :: us =>
    if isHighSurrogate n ∧ isLowSurrogate m then Paired us
    else ¬ (isHighSurrogate n || isLowSurrogate n) ∧ Paired (.unit m :: us)
  | .unit n :: us => ¬ (isHighSurrogate n || isLowSurrogate n) ∧ Paired us

/-- The escapes of two characters, by the second one. -/
def shortEscapes : List (Char × Char) :=
  [('"', '"'), ('\\', '\\'), ('/', '/'), ('b', '\x08'), ('f', '\x0c'), ('n', '\n'), ('r', '\r'),
   ('t', '\t')]

/-- `*char`, with what each of them stands for. -/
inductive Spells : List Char → List CodeUnit → Prop
  | nil : Spells [] []
  /-- `unescaped = %x20-21 / %x23-5B / %x5D-10FFFF` -/
  | plain {c cs us} (hc : 32 ≤ c.toNat) (hq : c ≠ '"') (hb : c ≠ '\\') (h : Spells cs us) :
    Spells (c :: cs) (.char c :: us)
  /-- `escape ( %x22 / %x5C / %x2F / %x62 / %x66 / %x6E / %x72 / %x74 )` -/
  | short {e c cs us} (he : (e, c) ∈ shortEscapes) (h : Spells cs us) :
    Spells ('\\' :: e :: cs) (.char c :: us)
  /-- `escape %x75 4HEXDIG` -/
  | hex {a b c d n cs us} (hn : fourHex? [a, b, c, d] = some n) (h : Spells cs us) :
    Spells ('\\' :: 'u' :: a :: b :: c :: d :: cs) (.unit n :: us)

/-- `string = quotation-mark *char quotation-mark` -/
def StringText (l : Latitude) (cs : List Char) (s : String) : Prop :=
  ∃ body us, Spells body us ∧ (l.alone ∨ Paired us) ∧ cs = '"' :: body ++ ['"'] ∧
    s = String.ofList (ofUnits us)

theorem StringText.mono {l m : Latitude} (hl : l ≤ m) {cs : List Char} {s : String}
    (h : StringText l cs s) : StringText m cs s := by
  obtain ⟨body, us, hbody, halone, hcs, hs⟩ := h
  exact ⟨body, us, hbody, halone.imp_left hl.2, hcs, hs⟩

/-! ### Values -/

/-- What a part of a text writes: a value, or what stands between two brackets. -/
inductive Part where
  | value (v : Value)
  | items (vs : List Value)
  | members (ms : Entries)

/-- The words of the grammar, each with the value that it stands for. -/
def grammarWords : List (List Char × Value) :=
  [("null".toList, .null), ("true".toList, .bool true), ("false".toList, .bool false)]

/-- The text writes a value, one or more items, or one or more members, with the given words. -/
inductive Writes (words : List (List Char × Value)) (l : Latitude) : List Char → Part → Prop
  | word {w v} (h : (w, v) ∈ words) : Writes words l w (.value v)
  | number (t : NumberText) (h : t.IsWhole → l.digits t.whole.length) :
    Writes words l t.chars (.value t.value)
  | string {cs s} (h : StringText l cs s) : Writes words l cs (.value (.str s))
  | emptyArray {ws} (hw : Blank ws) : Writes words l ('[' :: ws ++ [']']) (.value (.list []))
  /-- `array = begin-array [ value *( value-separator value ) ] end-array` -/
  | array {ws cs vs} (hw : Blank ws) (h : Writes words l cs (.items vs)) :
    Writes words l ('[' :: ws ++ cs ++ [']']) (.value (.list vs))
  | emptyObject {ws} (hw : Blank ws) :
    Writes words l ('\x7b' :: ws ++ ['\x7d']) (.value (.dict []))
  /-- `object = begin-object [ member *( value-separator member ) ] end-object` -/
  | object {ws cs ms} (hw : Blank ws) (h : Writes words l cs (.members ms)) :
    Writes words l ('\x7b' :: ws ++ cs ++ ['\x7d']) (.value (.dict (Keyed.ofPairs ms)))
  | item {cs v ws} (h : Writes words l cs (.value v)) (hw : Blank ws) :
    Writes words l (cs ++ ws) (.items [v])
  | items {cs v ws ws₂ ds vs} (h : Writes words l cs (.value v)) (hw : Blank ws)
    (hw₂ : Blank ws₂) (hs : Writes words l ds (.items vs)) :
    Writes words l (cs ++ ws ++ ',' :: ws₂ ++ ds) (.items (v :: vs))
  /-- `member = string name-separator value` -/
  | member {ks k ws ws₂ cs v ws₃} (hk : StringText l ks k) (hw : Blank ws) (hw₂ : Blank ws₂)
    (h : Writes words l cs (.value v)) (hw₃ : Blank ws₃) :
    Writes words l (ks ++ ws ++ ':' :: ws₂ ++ cs ++ ws₃) (.members [(.str k, v)])
  | members {ks k ws ws₂ cs v ws₃ ws₄ ds ms} (hk : StringText l ks k) (hw : Blank ws)
    (hw₂ : Blank ws₂) (h : Writes words l cs (.value v)) (hw₃ : Blank ws₃) (hw₄ : Blank ws₄)
    (hs : Writes words l ds (.members ms)) :
    Writes words l (ks ++ ws ++ ':' :: ws₂ ++ cs ++ ws₃ ++ ',' :: ws₄ ++ ds)
      (.members ((.str k, v) :: ms))

theorem Writes.null {l : Latitude} : Writes grammarWords l ['n', 'u', 'l', 'l'] (.value .null) :=
  .word (by simp [grammarWords])

theorem Writes.true {l : Latitude} :
    Writes grammarWords l ['t', 'r', 'u', 'e'] (.value (.bool .true)) :=
  .word (by simp [grammarWords])

theorem Writes.false {l : Latitude} :
    Writes grammarWords l ['f', 'a', 'l', 's', 'e'] (.value (.bool .false)) :=
  .word (by simp [grammarWords])

/-- A text of the grammar with the given words, blanks around it aside:
`JSON-text = ws value ws`. -/
def IsTextWith (words : List (List Char × Value)) (l : Latitude) (cs : List Char)
    (v : Value) : Prop :=
  ∃ ws ds ws₂, cs = ws ++ ds ++ ws₂ ∧ Blank ws ∧ Blank ws₂ ∧ Writes words l ds (.value v)

/-- A text of the grammar. -/
abbrev IsText (l : Latitude) (cs : List Char) (v : Value) : Prop := IsTextWith grammarWords l cs v

/-- With more words and more latitude there are more texts. -/
theorem Writes.mono {words words' : List (List Char × Value)} (hwords : words ⊆ words')
    {l m : Latitude} (hl : l ≤ m) {cs : List Char} {p : Part} (h : Writes words l cs p) :
    Writes words' m cs p := by
  induction h with
  | word h => exact .word (hwords h)
  | number t h => exact .number t fun hw => hl.1 _ (h hw)
  | string h => exact .string (h.mono hl)
  | emptyArray hw => exact .emptyArray hw
  | array hw _ ih => exact .array hw ih
  | emptyObject hw => exact .emptyObject hw
  | object hw _ ih => exact .object hw ih
  | item _ hw ih => exact .item ih hw
  | items _ hw hw₂ _ ih ihs => exact .items ih hw hw₂ ihs
  | member hk hw hw₂ _ hw₃ ih => exact .member (hk.mono hl) hw hw₂ ih hw₃
  | members hk hw hw₂ _ hw₃ hw₄ _ ih ihs => exact .members (hk.mono hl) hw hw₂ ih hw₃ hw₄ ihs

theorem IsTextWith.mono {words words' : List (List Char × Value)} (hwords : words ⊆ words')
    {l m : Latitude} (hl : l ≤ m) {cs : List Char} {v : Value} (h : IsTextWith words l cs v) :
    IsTextWith words' m cs v := by
  obtain ⟨ws, ds, ws₂, hcs, hw, hw₂, hs⟩ := h
  exact ⟨ws, ds, ws₂, hcs, hw, hw₂, hs.mono hwords hl⟩

/-- The reader knows the words of the grammar, and more. -/
theorem grammarWords_subset : grammarWords ⊆ words := List.take_subset 3 words

end Json
end CheckedActions
