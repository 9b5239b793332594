import CheckedActions.Number.Shortest

/-!
How a number is written: which exponents stay in positional notation, how an exponent looks, and
the texts of the numbers that are not finite.
-/

namespace CheckedActions

/-- The choices a float format leaves open. -/
structure FloatLayout where
  /-- The least power of ten of the leading digit that is written positionally. -/
  positionalFrom : Int
  /-- The first power of ten of the leading digit that is not. -/
  positionalBelow : Int
  /-- The least number of digits in an exponent. -/
  exponentDigits : Nat
  /-- Whether a whole number ends in `.0`. -/
  pointZero : Bool
  nan : String
  infinity : String
  negativeInfinity : String

namespace FloatLayout

/-- The default text of a float: exponents have two digits, `1e16` on and below `1e-4`. -/
def plain : FloatLayout := ⟨-4, 16, 2, true, "nan", "inf", "-inf"⟩

/-- The text of a part of a complex number, which has no `.0`. -/
def bare : FloatLayout := { plain with pointZero := false }

/-- The text of a float in a report: exponents have no leading zero and start below `1e-5`, and
what is not finite is null. -/
def report : FloatLayout := ⟨-5, 16, 1, true, "null", "null", "null"⟩

/-- The text of a float in JSON with the extensions for numbers that are not finite. -/
def extended : FloatLayout :=
  { plain with nan := "NaN", infinity := "Infinity", negativeInfinity := "-Infinity" }

end FloatLayout

/-- The text padded on the left with zeros. -/
def zeroPad (width : Nat) (text : String) : String :=
  String.ofList (List.replicate (width - text.length) '0') ++ text

def zeros (n : Nat) : String := String.ofList (List.replicate n '0')

/-- A decimal with no trailing zeros in the given layout. -/
def DecimalDigits.write (l : FloatLayout) (d : DecimalDigits) : String :=
  let ds := Nat.toDigits 10 d.digits
  let point : Int := ds.length + d.exponent
  let top := point - 1
  if l.positionalFrom ≤ top ∧ top < l.positionalBelow then
    if point ≤ 0 then "0." ++ zeros (-point).toNat ++ String.ofList ds
    else if (ds.length : Int) ≤ point then
      String.ofList ds ++ zeros d.exponent.toNat ++ (if l.pointZero then ".0" else "")
    else String.ofList (ds.take point.toNat) ++ "." ++ String.ofList (ds.drop point.toNat)
  else
    let mantissa := match ds with
      | [d] => String.singleton d
      | d :: rest => String.ofList (d :: '.' :: rest)
      | [] => ""
    let sign := if top < 0 then "-" else "+"
    mantissa ++ "e" ++ sign ++ zeroPad l.exponentDigits (toString top.natAbs)

namespace Binary64

/-- The shortest text that reads back. -/
def write (l : FloatLayout) : Binary64 → String
  | .nan => l.nan
  | .infinity negative => if negative then l.negativeInfinity else l.infinity
  | .finite negative m u =>
    let sign := if negative then "-" else ""
    if m = 0 then sign ++ (if l.pointZero then "0.0" else "0")
    else sign ++ (Shortest.ofFinite m u).write l

/-- The text of a complex number: a zero real part without a sign is left out. -/
def writeComplex (re im : Binary64) : String :=
  let negative : Bool := match im with
    | .infinity n => n
    | .finite n .. => n
    | .nan => false
  let imText := im.write FloatLayout.bare
  if re = zero false then imText ++ "j"
  else "(" ++ re.write FloatLayout.bare ++ (if negative then "" else "+") ++ imText ++ "j)"

end Binary64
end CheckedActions
