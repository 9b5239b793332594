import CheckedActions.Number.Layout

/-!
Decimal numbers of any precision: a sign, a coefficient and an exponent, kept apart so that
`1.50` and `1.5` are written differently. Infinities and the two kinds of NaN are included.
-/

namespace CheckedActions

inductive Decimal where
  | finite (negative : Bool) (coefficient : Nat) (exponent : Int)
  | infinity (negative : Bool)
  | nan (negative signaling : Bool) (payload : Nat)
  deriving DecidableEq, Inhabited

namespace Decimal

def signText (negative : Bool) : String := if negative then "-" else ""

/-- The text in scientific notation where the exponent is positive or the number is very small. -/
def write : Decimal → String
  | .infinity negative => signText negative ++ "Infinity"
  | .nan negative signaling payload =>
    signText negative ++ (if signaling then "sNaN" else "NaN") ++
      (if payload = 0 then "" else toString payload)
  | .finite negative coefficient exponent =>
    let ds := Nat.toDigits 10 coefficient
    let left : Int := exponent + ds.length
    let point : Int := if exponent ≤ 0 ∧ -6 < left then left else 1
    let whole :=
      if point ≤ 0 then "0." ++ zeros (-point).toNat ++ String.ofList ds
      else if (ds.length : Int) ≤ point then String.ofList ds ++ zeros (point - ds.length).toNat
      else String.ofList (ds.take point.toNat) ++ "." ++ String.ofList (ds.drop point.toNat)
    let scale := left - point
    signText negative ++ whole ++
      (if scale = 0 then "" else "E" ++ (if scale < 0 then "-" else "+") ++ toString scale.natAbs)

/-- The value of a finite decimal. -/
def toRat? : Decimal → Option Rat
  | .finite negative coefficient exponent =>
    let n : Int := if negative then -(coefficient : Int) else coefficient
    some (if 0 ≤ exponent then mkRat (n * pow10 exponent.toNat) 1
      else mkRat n (pow10 (-exponent).toNat))
  | _ => none

def natOf (ds : List Char) : Nat := ds.foldl (fun n c => 10 * n + (c.toNat - 48)) 0

/-- The decimal a text writes, digits being ASCII. -/
def ofString? (s : String) : Option Decimal :=
  let cs := s.toList.map Char.toLower
  let (negative, cs) := match cs with
    | '-' :: rest => (true, rest)
    | '+' :: rest => (false, rest)
    | rest => (false, rest)
  let word := String.ofList (cs.takeWhile Char.isAlpha)
  let payload := cs.dropWhile Char.isAlpha
  if word = "inf" ∨ word = "infinity" then
    if payload.isEmpty then some (.infinity negative) else none
  else if word = "nan" ∨ word = "snan" then
    if payload.all Char.isDigit then some (.nan negative (word = "snan") (natOf payload)) else none
  else
    let whole := cs.takeWhile Char.isDigit
    let (places, rest) := match cs.dropWhile Char.isDigit with
      | '.' :: rest => (rest.takeWhile Char.isDigit, rest.dropWhile Char.isDigit)
      | rest => ([], rest)
    let exponent? : Option Int := match rest with
      | [] => some 0
      | 'e' :: '-' :: ds =>
        if ds ≠ [] ∧ ds.all Char.isDigit then some (-(natOf ds : Int)) else none
      | 'e' :: '+' :: ds => if ds ≠ [] ∧ ds.all Char.isDigit then some (natOf ds : Int) else none
      | 'e' :: ds => if ds ≠ [] ∧ ds.all Char.isDigit then some (natOf ds : Int) else none
      | _ => none
    if whole.isEmpty ∧ places.isEmpty then none
    else exponent?.map fun e => .finite negative (natOf (whole ++ places)) (e - places.length)

end Decimal
end CheckedActions
