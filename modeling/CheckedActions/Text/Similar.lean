/-!
How alike two texts are: the share of their characters that lie in common blocks, where the longest
common block is taken first and the texts on its two sides are compared in the same way.
-/

namespace CheckedActions

namespace Similar

/-- How many characters two texts have in common at their beginnings. -/
def commonStart : List Char → List Char → Nat
  | a :: as, b :: bs => if a = b then commonStart as bs + 1 else 0
  | _, _ => 0

/-- A block that two texts have in common: where it begins in each, and its size. -/
structure Block where
  left : Nat
  right : Nat
  size : Nat

/-- The longest common block; of several the one that begins first. -/
def longestBlock (a b : List Char) : Block :=
  (List.range a.length).foldl (fun best i =>
    (List.range b.length).foldl (fun best j =>
      let size := commonStart (a.drop i) (b.drop j)
      if best.size < size then ⟨i, j, size⟩ else best) best) ⟨0, 0, 0⟩

/-- The number of characters in common blocks. -/
def matching : Nat → List Char → List Char → Nat
  | 0, _, _ => 0
  | fuel + 1, a, b =>
    let block := longestBlock a b
    if block.size = 0 then 0
    else
      matching fuel (a.take block.left) (b.take block.right) + block.size +
        matching fuel (a.drop (block.left + block.size)) (b.drop (block.right + block.size))

end Similar

/-- The likeness of two texts, from 0 to 1. -/
def similarity (a b : String) : Rat :=
  let size := a.length + b.length
  if size = 0 then 1
  else mkRat (2 * Similar.matching a.length a.toList b.toList) size

/-- The candidates that are like a word in at least six parts of ten, at most three of them, in
order of their code points. -/
def closeMatches (word : String) (candidates : List String) : List String :=
  let scored := (candidates.map fun c => (similarity c word, c)).filter fun (s, _) => 3 / 5 ≤ s
  let best := scored.mergeSort fun a b => if a.1 = b.1 then decide (b.2 ≤ a.2) else b.1 < a.1
  ((best.take 3).map (·.2)).mergeSort (· ≤ ·)

end CheckedActions
