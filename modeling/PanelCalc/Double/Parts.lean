/-!
# The parts of a double

A finite double is a sign, an integer below `2 ^ 53` and a power of two. This module reads the parts
off the bits, so that rounding and printing can be done in exact integer arithmetic.
-/

namespace PanelCalc.Double

/-- The magnitude `mantissa * 2 ^ exponent` of a finite double. -/
structure Magnitude where
  mantissa : Nat
  exponent : Int
  /-- Whether the double below lies at half the distance of the one above. -/
  narrowBelow : Bool
deriving DecidableEq, Repr

/-- Whether the sign bit is set. -/
def isNegative (x : Float) : Bool := x.toBits >>> 63 == 1

def magnitude (x : Float) : Magnitude :=
  let bits : Nat := x.toBits.toNat
  let biased : Nat := bits / Nat.pow 2 52 % Nat.pow 2 11
  let fraction : Nat := bits % Nat.pow 2 52
  if biased = 0 then ⟨fraction, -1074, false⟩
  else ⟨Nat.pow 2 52 + fraction, (biased : Int) - 1075, fraction == 0 && 1 < biased⟩

/-- The value of a double that is a natural number, negative zero included. -/
def natural? (x : Float) : Option Nat :=
  if x.isFinite then
    let size := magnitude x
    if isNegative x && size.mantissa != 0 then none
    else if 0 ≤ size.exponent then some (size.mantissa * Nat.pow 2 size.exponent.toNat)
    else
      let unit := Nat.pow 2 (-size.exponent).toNat
      if size.mantissa % unit = 0 then some (size.mantissa / unit) else none
  else none

end PanelCalc.Double
