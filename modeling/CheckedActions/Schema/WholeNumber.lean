import CheckedActions.Number.Decimal
import CheckedActions.Schema.Problem
import CheckedActions.Text.Blank

/-!
Whole numbers that texts write. A text is first brought to its plain form: padding, a plus sign,
leading zeros, a point with zeros behind it and single underscores are taken away. A plain form is
a minus sign or none and then digits, of which the first is a zero only if there is no other. The
size limit holds for plain forms, so zeros and underscores do not count against it.
-/

namespace CheckedActions
namespace WholeNumber

/-- Blanks that may stand around a number. -/
def isPadding (c : Char) : Bool := isBlank c && !(28 ≤ c.toNat && c.toNat ≤ 31)

/-- What follows a leading zero, from the first character that is neither a zero nor an underscore.
The character before a point stays, and so does the last one where nothing else follows. The sign
of a number may stand behind its leading zeros. -/
def afterZero? (last : Char) : List Char → Option (List Char)
  | [] => some [last]
  | c :: cs =>
    if c = '0' ∨ c = '_' then afterZero? c cs
    else if c = '.' then some (last :: c :: cs)
    else if c.isDigit ∨ c = '-' then some (c :: cs)
    else none

/-- A text that begins with a digit, less its leading zeros. -/
def dropZeros? : List Char → Option (List Char)
  | [] => none
  | c :: cs =>
    if c = '0' then afterZero? c cs
    else if c.isDigit then some (c :: cs)
    else none

/-- A text less a point with one zero or more behind it and nothing else. -/
def dropPlaces (cs : List Char) : List Char :=
  let places := (cs.dropWhile (· ≠ '.')).drop 1
  if !places.isEmpty && places.all (· = '0') then cs.takeWhile (· ≠ '.') else cs

/-- A text less its underscores, if each of them stands between two other characters. -/
def dropUnderscores (cs : List Char) : List Char :=
  let groups := cutAt (· = '_') cs
  if groups.all (!·.isEmpty) then groups.flatten else cs

/-- The plain form of a text. -/
def plainForm? (cs : List Char) : Option (List Char) :=
  let cs := dropTrailing isPadding (cs.dropWhile isPadding)
  let (sign, cs) := match cs with
    | '-' :: rest => (['-'], rest)
    | '+' :: rest => ([], rest)
    | rest => ([], rest)
  (dropZeros? cs).map fun rest => sign ++ dropUnderscores (dropPlaces rest)

/-- The most characters of a plain form, its sign included. -/
def sizeLimit : Nat := 4300

/-- The number a plain form writes. One that goes beyond the limit is not read to its end. -/
def ofPlainForm (cs : List Char) : Except ProblemKind Int :=
  let (negative, ds) := match cs with
    | '-' :: rest => (true, rest)
    | rest => (false, rest)
  let run := ds.takeWhile Char.isDigit
  if ds = ['0'] then .ok 0
  else if ds.head? = some '0' then .error .intParsing
  else if sizeLimit < run.length + (if negative then 1 else 0) then .error .intParsingSize
  else if run.isEmpty || run.length < ds.length then .error .intParsing
  else
    let n : Int := Decimal.natOf ds
    .ok (if negative then -n else n)

/-- The whole number a text writes. -/
def ofText (s : String) : Except ProblemKind Int :=
  match plainForm? s.toList with
  | some cs => ofPlainForm cs
  | none => .error .intParsing

end WholeNumber
end CheckedActions
