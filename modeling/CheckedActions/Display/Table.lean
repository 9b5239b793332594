import CheckedActions.Display.Wrap

/-!
Tables with a header and ruled borders. Columns are as wide as their contents where there is room.
Where there is not, the widest columns give way first, down to the next widest, and if that is not
enough all columns shrink alike.
-/

namespace CheckedActions

structure Table where
  title? : Option (List Char)
  header : List (List Char)
  rows : List (List (List Char))

namespace Table

/-- The cells of the widest line. -/
def textWidth (cs : List Char) : Nat := ((splitLines cs).map cellLength).foldl max 0

/-- The width a column wants for the given cells, blanks at both sides included. -/
def wantedWidth (room : Nat) (cells : List (List Char)) : Nat :=
  if room = 0 then 0
  else min room ((cells.map fun c =>
    if room - 2 = 0 then room else min room (min (room - 2) (textWidth c) + 2)).foldl max 0)

/-- Takes `amount` away from the widths, the part of each that takes part being its share of what is
left, rounded, and at most its cap. -/
def reduce (amount : Nat) (takesPart : List Bool) (caps widths : List Nat) : List Nat :=
  let active := (takesPart.zip caps).map fun (b, cap) => b && cap ≠ 0
  go amount (active.filter id).length (active.zip (caps.zip widths))
where
  go (left shares : Nat) : List (Bool × Nat × Nat) → List Nat
    | [] => []
    | (true, cap, width) :: rest =>
      let part := min cap (divHalfEven left shares)
      (width - part) :: go (left - part) (shares - 1) rest
    | (false, _, width) :: rest => width :: go left shares rest

/-- Narrows the widest columns until the excess is gone or all columns are alike. -/
def collapse (room : Nat) : Nat → List Nat → List Nat
  | 0, widths => widths
  | fuel + 1, widths =>
    let excess := total widths - room
    let widest := widths.foldl max 0
    let second := (widths.filter (· ≠ widest)).foldl max 0
    if total widths = 0 ∨ excess = 0 ∨ widest = second then widths
    else
      let cap := min excess (widest - second)
      collapse room fuel
        (reduce excess (widths.map (· = widest)) (widths.map fun _ => cap) widths)

def columns (t : Table) : List (List (List Char)) :=
  (List.range t.header.length).map fun i => (t.header :: t.rows).map fun r => r[i]?.getD []

/-- The widths of the columns in the given room, borders aside. -/
def columnWidths (room : Nat) (columns : List (List (List Char))) : List Nat :=
  let wanted := columns.map fun c => let w := wantedWidth room c; if w = 0 then 1 else w
  if total wanted ≤ room then wanted
  else
    let narrowed := collapse room (total wanted + 1) wanted
    let narrowed :=
      if total narrowed ≤ room then narrowed
      else reduce (total narrowed - room) (narrowed.map fun _ => true) narrowed narrowed
    (narrowed.zip columns).map fun (w, c) => wantedWidth w c

/-- The lines of a cell of the given width. -/
def cellLines (width : Nat) (cs : List Char) : List (List Char) :=
  (wrapText (width - 2) .ellipsis cs).map fun l => ' ' :: padCells (width - 2) l ++ [' ']

/-- A row of cells between borders, as tall as its tallest cell. A header's cells stand at the
bottom, others at the top. -/
def rowLines (isHeader : Bool) (edge : Char) (widths : List Nat) (cells : List (List Char)) :
    List (List Char) :=
  let blocks := (widths.zip cells).map fun (w, c) => (w, cellLines w c)
  let height := (blocks.map fun (_, b) => b.length).foldl max 1
  (List.range height).map fun i =>
    blocks.foldl (fun line (w, b) =>
      let above := if isHeader then height - b.length else 0
      let part := if i < above then [] else b[i - above]?.getD []
      line ++ padCells w part ++ [edge]) [edge]

/-- A ruled line. -/
def rule (left across between right : Char) (widths : List Nat) : List Char :=
  left :: [between].intercalate (widths.map fun w => List.replicate w across) ++ [right]

/-- The lines of a table in a display of the given width. -/
def lines (display : Nat) (t : Table) : List (List Char) :=
  if display = 0 then []
  else
    let extra := t.header.length + 1
    let widths := columnWidths (display - extra) t.columns
    let width := total widths + extra
    let title := match t.title? with
      | some cs => (wrapText width .fold cs).map (padCells width)
      | none => []
    let all := title
      ++ [rule '┏' '━' '┳' '┓' widths]
      ++ rowLines true '┃' widths t.header
      ++ [rule '┡' '━' '╇' '┩' widths]
      ++ t.rows.flatMap (rowLines false '│' widths)
      ++ [rule '└' '─' '┴' '┘' widths]
    all.map (cropCells display)

end Table
end CheckedActions
