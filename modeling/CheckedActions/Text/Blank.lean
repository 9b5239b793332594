/-!
Blank characters and line ends, as Unicode has them: trimming, and cutting a text into lines.
-/

namespace CheckedActions

/-- White space, the four separators of information included. -/
def isBlank (c : Char) : Bool :=
  let n := c.toNat
  (9 ≤ n && n ≤ 13) || (28 ≤ n && n ≤ 32) || n = 0x85 || n = 0xa0 || n = 0x1680 ||
    (0x2000 ≤ n && n ≤ 0x200a) || n = 0x2028 || n = 0x2029 || n = 0x202f || n = 0x205f || n = 0x3000

/-- A character that ends a line. -/
def isLineEnd (c : Char) : Bool :=
  let n := c.toNat
  (10 ≤ n && n ≤ 13) || (28 ≤ n && n ≤ 30) || n = 0x85 || n = 0x2028 || n = 0x2029

def dropTrailing (p : Char → Bool) (cs : List Char) : List Char :=
  (cs.reverse.dropWhile p).reverse

/-- The text without the blanks at its two ends. -/
def trimBlanks (cs : List Char) : List Char := dropTrailing isBlank (cs.dropWhile isBlank)

/-- Cuts at every character of the class, keeping empty pieces. -/
def cutAt (p : Char → Bool) : List Char → List (List Char)
  | [] => [[]]
  | c :: cs =>
    if p c then [] :: cutAt p cs
    else match cutAt p cs with
      | piece :: pieces => (c :: piece) :: pieces
      | [] => [[c]]

/-- The lines of a text. A line end closes a line, so none follows the last one; a return with a
line feed is one line end. -/
def splitLines (cs : List Char) : List (List Char) :=
  let pieces := cutAt isLineEnd (joinReturns cs)
  match pieces.reverse with
  | [] :: rest => rest.reverse
  | _ => pieces
where
  joinReturns : List Char → List Char
    | '\r' :: '\n' :: rest => '\n' :: joinReturns rest
    | c :: rest => c :: joinReturns rest
    | [] => []

end CheckedActions
