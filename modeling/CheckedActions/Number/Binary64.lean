import CheckedActions.Number.Natural

/-!
Double-precision numbers, exactly. A finite number is a sign, a significand below `2 ^ 53` and a
unit: it stands for `significand * 2 ^ unit / 2 ^ 1074`, so comparing and rounding are questions
about natural numbers. Every rounding here is to the nearest number, a tie going to the even
significand.
-/

namespace CheckedActions

inductive Binary64 where
  | nan
  | infinity (negative : Bool)
  | finite (negative : Bool) (significand unit : Nat)
  deriving DecidableEq, Inhabited

namespace Binary64

/-- The denominator shared by all finite numbers. -/
def scale : Nat := pow2 1074

def zero (negative : Bool) : Binary64 := .finite negative 0 0

/-- The number of units of `1 / scale` in the magnitude of a finite number. -/
def magnitude (significand unit : Nat) : Nat := significand * pow2 unit

/-- The finite number with the given parts, or an infinity if the unit is too large for one. -/
def ofParts (negative : Bool) (significand unit : Nat) : Binary64 :=
  if 2045 < unit then .infinity negative else .finite negative significand unit

/-- The number nearest to `num / den`, an infinity from `2 ^ 1024 - 2 ^ 970` on. -/
def ofRatio (negative : Bool) (num den : Nat) : Binary64 :=
  let scaled := num * scale
  let unit := (scaled / den).log2 - 52
  let rounded := divHalfEven scaled (den * pow2 unit)
  if rounded = pow2 53 then ofParts negative (pow2 52) (unit + 1)
  else ofParts negative rounded unit

/-- The number nearest to an integer. -/
def ofInt (n : Int) : Binary64 := ofRatio (decide (n < 0)) n.natAbs 1

/-- The number nearest to `digits * 10 ^ exponent`. Magnitudes that no finite number comes near
are answered without computing the power. -/
def ofDecimal (negative : Bool) (digits : Nat) (exponent : Int) : Binary64 :=
  let size : Int := (Nat.toDigits 10 digits).length
  if digits = 0 then zero negative
  else if 310 < size + exponent then .infinity negative
  else if size + exponent < -330 then zero negative
  else if 0 ≤ exponent then ofRatio negative (digits * pow10 exponent.toNat) 1
  else ofRatio negative digits (pow10 (-exponent).toNat)

def isFinite : Binary64 → Bool
  | .finite .. => true
  | _ => false

def isZero : Binary64 → Bool
  | .finite _ m _ => m = 0
  | _ => false

/-- The integer a finite number equals, if it equals one. -/
def toInt? : Binary64 → Option Int
  | .finite negative m u =>
    let whole := magnitude m u / scale
    if magnitude m u % scale = 0 then some (if negative then -(whole : Int) else whole) else none
  | _ => none

/-- The quotient by a positive natural number, rounded. -/
def divNat : Binary64 → Nat → Binary64
  | .finite negative m u, k => ofRatio negative (magnitude m u) (scale * k)
  | x, _ => x

/-- The whole part of the magnitude and the number left over, which keeps the sign. -/
def splitWhole (negative : Bool) (m u : Nat) : Nat × Binary64 :=
  (magnitude m u / scale, ofRatio negative (magnitude m u % scale) scale)

/-- The whole number nearest to the magnitude of a finite number. -/
def roundWhole : Binary64 → Nat
  | .finite _ m u => divHalfEven (magnitude m u) scale
  | _ => 0

/-- The magnitude of a product with a natural number, rounded first to a double and then to the
nearest whole number. -/
def mulRoundWhole : Binary64 → Nat → Nat
  | .finite _ m u, k => (ofRatio false (magnitude m u * k) scale).roundWhole
  | _, _ => 0

end Binary64
end CheckedActions
