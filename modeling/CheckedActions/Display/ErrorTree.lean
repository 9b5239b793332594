import CheckedActions.Display.Wrap
import CheckedActions.Value.Show

/-!
Error trees as drawings: a label, and under it a branch per failing key. A nested dictionary
becomes a branch with branches of its own; any other reason stands behind its key.
-/

namespace CheckedActions

inductive Tree where
  | node (label : List Char) (children : List Tree)

namespace Tree

mutual
/-- The branches of an error dictionary. -/
def ofErrors : Value → Option (List Tree)
  | .dict es => some (ofEntries es)
  | _ => none
termination_by structural v => v

def ofEntries : List (Value × Value) → List Tree
  | [] => []
  | (k, v) :: es =>
    (match ofErrors v with
      | some children => node (displayed k.text) children
      | none => node (displayed (k.text ++ ": " ++ v.text)) []) :: ofEntries es
termination_by structural es => es
end

/-- The tree of an error value under a label. Errors that are no dictionary are its one leaf. -/
def errorTree (label : String) (errors : Value) : Tree :=
  node (displayed label) ((ofErrors errors).getD [node (displayed errors.text) []])

/-- The lines of a label behind the guides of its level. The last guide, given for the first line
and for the others, is none at the root. -/
def labelLines (display : Nat) (guides : List Char) (last : Option (List Char × List Char))
    (label : List Char) : List (List Char) :=
  let indent := cellLength guides + (if last.isSome then 4 else 0)
  let lines := wrapText (display - indent) .fold label
  match lines with
  | [] => []
  | l :: ls =>
    (guides ++ (last.map (·.1)).getD [] ++ l) ::
      ls.map fun l => guides ++ (last.map (·.2)).getD [] ++ l

mutual
/-- The lines of a branch behind the guides of the levels above. -/
def branchLines (display : Nat) (guides : List Char) (isLast : Bool) : Tree → List (List Char)
  | node label children =>
    let fork := if isLast then "└── ".toList else "├── ".toList
    let follow := if isLast then "    ".toList else "│   ".toList
    labelLines display guides (some (fork, follow)) label
      ++ childLines display (guides ++ follow) children
termination_by structural t => t

def childLines (display : Nat) (guides : List Char) : List Tree → List (List Char)
  | [] => []
  | t :: ts => branchLines display guides ts.isEmpty t ++ childLines display guides ts
termination_by structural ts => ts
end

/-- The lines of a tree in a display of the given width. -/
def lines (display : Nat) : Tree → List (List Char)
  | node label children =>
    if display = 0 then []
    else
      (labelLines display [] none label ++ childLines display [] children).map
        (cropCells display)

end Tree
end CheckedActions
