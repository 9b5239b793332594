import CheckedActions.Number.Binary64

/-!
The shortest decimal that reads back as a given double. The decimals that read back are those in
the interval of numbers nearer to it than to its neighbours, the ends included when the
significand is even. On the grid of each number of digits only the two points next to the double
can be the nearest hit; the first grid with a hit wins.
-/

namespace CheckedActions

/-- The decimal `digits * 10 ^ exponent`. -/
structure DecimalDigits where
  digits : Nat
  exponent : Int
  deriving DecidableEq

namespace DecimalDigits

/-- Trailing zeros of the digits moved into the exponent. -/
def strip (d : DecimalDigits) : DecimalDigits :=
  go 20 d
where
  go : Nat → DecimalDigits → DecimalDigits
    | 0, d => d
    | fuel + 1, d =>
      if d.digits ≠ 0 ∧ d.digits % 10 = 0 then go fuel ⟨d.digits / 10, d.exponent + 1⟩ else d

end DecimalDigits

namespace Shortest

/-- The interval that rounds to a double, in quarters of `1 / Binary64.scale`: lower end, the
double itself, upper end, and whether the ends belong to it. -/
structure Interval where
  low : Nat
  value : Nat
  high : Nat
  closed : Bool

def interval (significand unit : Nat) : Interval :=
  let gap := pow2 unit
  let value := 4 * Binary64.magnitude significand unit
  { low := if significand = pow2 52 ∧ 0 < unit then value - gap else value - 2 * gap
    value
    high := value + 2 * gap
    closed := significand % 2 = 0 }

def Interval.contains (i : Interval) (num den : Nat) : Bool :=
  if i.closed then decide (i.low * den ≤ num) && decide (num ≤ i.high * den)
  else decide (i.low * den < num) && decide (num < i.high * den)

def quarter : Nat := 4 * Binary64.scale

/-- The power of ten of the leading digit. -/
def leading (value : Nat) : Int :=
  if quarter ≤ value then (Nat.toDigits 10 (value / quarter)).length - 1
  else -((Nat.toDigits 10 ((quarter + value - 1) / value - 1)).length : Int)

/-- The better of the two grid points `n * 10 ^ exponent` next to the double, if one reads back. -/
def onGrid (i : Interval) (exponent : Int) : Option DecimalDigits :=
  let up := pow10 exponent.toNat
  let down := pow10 (-exponent).toNat
  let num := i.value * down
  let den := quarter * up
  let n := num / den
  let below := i.contains (n * den) down
  let above := i.contains ((n + 1) * den) down
  let nearer : Nat :=
    let twice := 2 * (num % den)
    if twice < den then n else if den < twice then n + 1 else if n % 2 = 0 then n else n + 1
  match below, above with
  | true, true => some ⟨nearer, exponent⟩
  | true, false => if n = 0 then none else some ⟨n, exponent⟩
  | false, true => some ⟨n + 1, exponent⟩
  | false, false => none

/-- The first hit among the grids of `k, k + 1, …` digits. -/
def search (i : Interval) (top : Int) : Nat → Nat → DecimalDigits
  | 0, k => ⟨i.value * pow10 (k - top).toNat / quarter, top - k⟩
  | fuel + 1, k => (onGrid i (top - k)).getD (search i top fuel (k + 1))

/-- The shortest decimal that reads back as a positive finite double. -/
def ofFinite (significand unit : Nat) : DecimalDigits :=
  let i := interval significand unit
  (search i (leading i.value) 17 0).strip

end Shortest
end CheckedActions
