import PanelCalc.Double.Shortest

/-!
# Decimal notation

Two ways to write a double by its shortest decimal. The plain one is positional whatever the size
and has no fraction for integers. The marked one always shows that the number is no integer literal:
by a fraction, or by an exponent for very large and very small numbers.
-/

namespace PanelCalc.Double

/-- Positional digits of `digits * 10 ^ exponent`. -/
def positional (digits : List Char) (exponent : Int) : List Char :=
  if 0 ≤ exponent then digits ++ List.replicate exponent.toNat '0'
  else
    let places := (-exponent).toNat
    if places < digits.length then
      digits.take (digits.length - places) ++ '.' :: digits.drop (digits.length - places)
    else '0' :: '.' :: List.replicate (places - digits.length) '0' ++ digits

/-- One digit, the rest as a fraction, and the power of ten. -/
def scientific (digits : List Char) (exponent : Int) : List Char :=
  let fraction := match digits.drop 1 with
    | [] => []
    | others => '.' :: others
  let power := exponent + (digits.length - 1 : Nat)
  digits.take 1 ++ fraction ++ 'e' :: (toString power).toList

/-- Writes the sign and the special values, and leaves a finite magnitude to `write`. -/
def writeWith (write : Decimal → List Char) (x : Float) : String :=
  if x.isNaN then "NaN"
  else
    let body := if x.isInf then "inf".toList else write (magnitude x).shortest
    String.ofList (if isNegative x then '-' :: body else body)

def Decimal.digits (decimal : Decimal) : List Char := Nat.toDigits 10 decimal.coefficient

/-- The shortest positional text of a double, such as `1`, `0.1` and `-2.5`. -/
def plain : Float → String :=
  writeWith fun decimal => positional decimal.digits decimal.exponent

/--
The text of a double with a fraction or an exponent, such as `1.0`, `1e16` and `2.5e-5`. Magnitudes
from `1e-4` up to, but not including, `1e16` are positional, and so is zero.
-/
def marked : Float → String :=
  writeWith fun decimal =>
    let digits := decimal.digits
    let point := decimal.exponent + digits.length
    if decimal.coefficient ≠ 0 ∧ (point ≤ -4 ∨ 17 ≤ point) then
      scientific digits decimal.exponent
    else if 0 ≤ decimal.exponent then positional digits decimal.exponent ++ ['.', '0']
    else positional digits decimal.exponent

end PanelCalc.Double
