import CheckedActions.Number.Layout
import CheckedActions.Text.Quoted

/-!
JSON documents and their text. One printer serves every output; a style says how characters of
texts are escaped, how numbers are written, and whether the text is spread over lines.
-/

namespace CheckedActions.Json

inductive Document where
  | null
  | bool (b : Bool)
  | int (n : Int)
  | float (x : Binary64)
  | text (s : String)
  | array (items : List Document)
  | object (members : List (String × Document))
  deriving Inhabited

structure Style where
  escape : Char → List Char
  floats : FloatLayout
  /-- Whether every item stands on a line of its own, two blanks further in than its collection. -/
  spread : Bool

/-- The escape of a character that has a short one. -/
def shortEscape? (c : Char) : Option (List Char) :=
  if c = '"' then some ['\\', '"']
  else if c = '\\' then some ['\\', '\\']
  else if c = '\n' then some ['\\', 'n']
  else if c = '\r' then some ['\\', 'r']
  else if c = '\t' then some ['\\', 't']
  else if c = '\x08' then some ['\\', 'b']
  else if c = '\x0c' then some ['\\', 'f']
  else none

def unitEscape (n : Nat) : List Char := '\\' :: 'u' :: hexDigits 4 n

/-- Escapes what a JSON text cannot hold as it is, and nothing else. -/
def escapeControls (c : Char) : List Char :=
  match shortEscape? c with
  | some e => e
  | none => if c.toNat < 32 then unitEscape c.toNat else [c]

/-- Escapes everything outside printable ASCII, what lies beyond 16 bits as a surrogate pair. -/
def escapeToAscii (c : Char) : List Char :=
  match shortEscape? c with
  | some e => e
  | none =>
    let n := c.toNat
    if 32 ≤ n ∧ n < 127 then [c]
    else if n < 0x10000 then unitEscape n
    else
      let m := n - 0x10000
      unitEscape (0xd800 + m / 0x400) ++ unitEscape (0xdc00 + m % 0x400)

namespace Style

/-- The style of whole reports. -/
def report : Style := ⟨escapeControls, FloatLayout.report, true⟩

/-- The style of results on their own. -/
def result : Style := ⟨escapeToAscii, FloatLayout.extended, true⟩

/-- The style of log lines. -/
def line : Style := ⟨escapeToAscii, FloatLayout.extended, false⟩

def quote (st : Style) (s : String) : List Char := '"' :: s.toList.flatMap st.escape ++ ['"']

/-- What stands between a bracket and the items at the given depth. -/
def newLine (st : Style) (depth : Nat) : List Char :=
  if st.spread then '\n' :: List.replicate (2 * depth) ' ' else []

/-- What stands between two items at the given depth. -/
def separator (st : Style) (depth : Nat) : List Char :=
  ',' :: (if st.spread then st.newLine depth else [' '])

/-- Items in brackets, the items being at the given depth and the closing bracket one less deep. -/
def enclose (st : Style) (left right : Char) (depth : Nat) (items : List (List Char)) : List Char :=
  if items.isEmpty then [left, right]
  else
    left :: st.newLine (depth + 1) ++ (st.separator (depth + 1)).intercalate items ++
      st.newLine depth ++ [right]

end Style

namespace Document

mutual
/-- The text of a document that stands at the given depth. -/
def write (st : Style) (depth : Nat) : Document → List Char
  | null => "null".toList
  | bool b => if b then "true".toList else "false".toList
  | int n => (toString n).toList
  | float x => (x.write st.floats).toList
  | text s => st.quote s
  | array items => st.enclose '[' ']' depth (writeItems st (depth + 1) items)
  | object members => st.enclose '\x7b' '\x7d' depth (writeMembers st (depth + 1) members)
termination_by structural d => d

def writeItems (st : Style) (depth : Nat) : List Document → List (List Char)
  | [] => []
  | d :: ds => d.write st depth :: writeItems st depth ds
termination_by structural ds => ds

def writeMembers (st : Style) (depth : Nat) : List (String × Document) → List (List Char)
  | [] => []
  | (k, d) :: ms => (st.quote k ++ ':' :: ' ' :: d.write st depth) :: writeMembers st depth ms
termination_by structural ms => ms
end

/-- The text of a document. -/
def render (st : Style) (d : Document) : String := String.ofList (d.write st 0)

end Document
end CheckedActions.Json
