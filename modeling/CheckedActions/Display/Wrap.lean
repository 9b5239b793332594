import CheckedActions.Text.Blank
import CheckedActions.Text.Cells

/-!
Laying out text in lines of a given number of cells. Lines break between words. A word wider than
a line is folded over several lines, or else cut short with an ellipsis.
-/

namespace CheckedActions

/-- What happens to a word that is wider than a line. -/
inductive Overflow where
  | fold
  | ellipsis
  deriving DecidableEq

/-- Control characters that never reach a display. -/
def isStripped (c : Char) : Bool :=
  let n := c.toNat
  n = 7 || n = 8 || n = 11 || n = 12 || n = 13

/-- The characters of a text that reach a display. -/
def displayed (s : String) : List Char := s.toList.filter (!isStripped ·)

namespace Wrap

/-- Tabs as blanks up to the next multiple of eight cells. -/
def expandTabs (cs : List Char) : List Char :=
  go 0 cs
where
  go (position : Nat) : List Char → List Char
    | [] => []
    | c :: rest =>
      if c = '\t' then
        let next := (position / 8 + 1) * 8
        List.replicate (next - position) ' ' ++ go next rest
      else c :: go (position + cellWidth c) rest

/-- Runs joined two by two, a word with the blanks after it. -/
def pairUp : List (List Char) → List (List Char)
  | [] => []
  | [run] => [run]
  | word :: blanks :: rest => (word ++ blanks) :: pairUp rest

/-- The words of a line with the blanks after them, those in front belonging to the first word.
A line of blanks has no words. -/
def words (cs : List Char) : List (List Char) :=
  match cs.splitBy (fun a b => isBlank a = isBlank b) with
  | [] => []
  | run :: rest =>
    if run.all isBlank then
      match pairUp rest with
      | [] => []
      | word :: more => (run ++ word) :: more
    else pairUp (run :: rest)

/-- A text in pieces of at most so many cells. -/
def chop (width : Nat) (cs : List Char) : List (List Char) :=
  let (pieces, piece, _) := cs.foldl (fun (pieces, piece, used) c =>
    let w := cellWidth c
    if width < used + w then (piece :: pieces, [c], w) else (pieces, c :: piece, used + w))
    ([], [], 0)
  ((piece :: pieces).map List.reverse).reverse

/-- Lines under construction, the current one last, and the cells it is taken to fill. -/
structure Filling where
  done : List (List Char)
  line : List Char
  offset : Nat

namespace Filling

/-- Begins a line, unless nothing is written yet. -/
def newLine (f : Filling) : Filling :=
  if f.done.isEmpty && f.line.isEmpty then f
  else { f with done := f.done ++ [f.line], line := [] }

def append (f : Filling) (cs : List Char) : Filling := { f with line := f.line ++ cs }

def lines (f : Filling) : List (List Char) := f.done ++ [f.line]

/-- Places a word: on the current line if it fits without its trailing blanks, else on lines of
its own. -/
def place (width : Nat) (overflow : Overflow) (f : Filling) (word : List Char) : Filling :=
  let needed := cellLength (dropTrailing isBlank word)
  if f.offset + needed ≤ width then
    { f.append word with offset := f.offset + cellLength word }
  else if width < needed ∧ overflow = .fold then
    let pieces := chop width word
    { pieces.foldl (fun f piece => f.newLine.append piece) f with
      offset := cellLength (pieces.getLast?.getD []) }
  else { f.newLine.append word with offset := cellLength word }

end Filling

/-- Trailing blanks cut off as far as the line has more than `width` characters. -/
def trimEnd (width : Nat) (cs : List Char) : List Char :=
  let blanks := (cs.reverse.takeWhile isBlank).length
  cs.take (cs.length - min blanks (cs.length - width))

/-- The first `width` cells with the marks on them; half of a wide character becomes a blank. -/
def firstCells : Nat → List Char → List Char
  | _, [] => []
  | width, c :: rest =>
    let w := cellWidth c
    if w ≤ width then c :: firstCells (width - w) rest
    else List.replicate width ' '

/-- The first `width` cells; no cells hold nothing, marks included. -/
def cut (width : Nat) (cs : List Char) : List Char :=
  if width = 0 then [] else firstCells width cs

def truncate (width : Nat) (overflow : Overflow) (cs : List Char) : List Char :=
  if cellLength cs ≤ width then cs
  else match overflow with
    | .fold => cut width cs
    | .ellipsis => cut (width - 1) cs ++ ['…']

/-- One line, which holds no line feed, in lines of the given width. -/
def line (width : Nat) (overflow : Overflow) (cs : List Char) : List (List Char) :=
  let cs := expandTabs cs
  let filled := (words cs).foldl (Filling.place width overflow) ⟨[], [], 0⟩
  let lines := if (words cs).isEmpty then [cs] else filled.lines
  lines.map fun l => truncate width overflow (trimEnd width l)

end Wrap

/-- A text in lines of the given width; where there is no room at all, there are no lines. -/
def wrapText (width : Nat) (overflow : Overflow) (cs : List Char) : List (List Char) :=
  if width = 0 then [] else (cutAt (· = '\n') cs).flatMap (Wrap.line width overflow)

/-- Blanks up to the given number of cells. -/
def padCells (width : Nat) (cs : List Char) : List Char :=
  cs ++ List.replicate (width - cellLength cs) ' '

/-- The line cut to the given number of cells. -/
def cropCells (width : Nat) (cs : List Char) : List Char :=
  if cellLength cs ≤ width then cs else Wrap.cut width cs

end CheckedActions
