import PanelCalc.Double.Parts

/-!
# The shortest decimal of a double

Among the decimals that read back as a given double, the one with the fewest digits, and of those
the one nearest to the double; the larger of two equally near ones.

The decimals with a given last place form a grid. If a point of the grid lies among the numbers that
round to the double, so does one of the two neighbours of the double on that grid. The search goes
from a grid too coarse to finer ones and stops at the first with such a neighbour. Distances are
compared in integers: a number is held as a numerator over the common denominator `scale`.
-/

namespace PanelCalc.Double

structure Decimal where
  coefficient : Nat
  exponent : Int
deriving DecidableEq, Repr

/-- The numbers that round to one double, over a common denominator. -/
structure RoundingInterval where
  low : Nat
  value : Nat
  high : Nat
  scale : Nat
  /-- Whether the two ends belong to the interval. -/
  closed : Bool
deriving DecidableEq, Repr

/-- The numbers nearer to a magnitude than to its neighbours; ties go to an even mantissa. -/
def Magnitude.interval (size : Magnitude) : RoundingInterval :=
  let up := Nat.pow 2 (size.exponent - 2).toNat
  { low := (4 * size.mantissa - if size.narrowBelow then 1 else 2) * up
    value := 4 * size.mantissa * up
    high := (4 * size.mantissa + 2) * up
    scale := Nat.pow 2 (2 - size.exponent).toNat
    closed := size.mantissa % 2 == 0 }

namespace RoundingInterval

/-- The same numbers in units of `10 ^ exponent`. -/
def inUnits (interval : RoundingInterval) (exponent : Int) : RoundingInterval :=
  let up := Nat.pow 10 (-exponent).toNat
  { low := interval.low * up
    value := interval.value * up
    high := interval.high * up
    scale := interval.scale * Nat.pow 10 exponent.toNat
    closed := interval.closed }

def contains (interval : RoundingInterval) (n : Nat) : Bool :=
  let point := n * interval.scale
  if interval.closed then interval.low ≤ point && point ≤ interval.high
  else interval.low < point && point < interval.high

/-- The integer of the interval nearest to its value, if it holds one. -/
def nearest? (interval : RoundingInterval) : Option Nat :=
  let below := interval.value / interval.scale
  let above := below + 1
  match interval.contains below, interval.contains above with
  | true, true =>
    if interval.value - below * interval.scale < above * interval.scale - interval.value
    then some below else some above
  | true, false => some below
  | false, true => some above
  | false, false => none

/-- Searches `grids + 1` grids, each ten times finer than the one before. -/
def coarsest (interval : RoundingInterval) (exponent : Int) : Nat → Decimal
  | 0 =>
    let units := interval.inUnits exponent
    ⟨units.nearest?.getD (units.value / units.scale), exponent⟩
  | grids + 1 =>
    match (interval.inUnits exponent).nearest? with
    | some n => ⟨n, exponent⟩
    | none => interval.coarsest (exponent - 1) grids

end RoundingInterval

/--
The shortest decimal of a magnitude. The first grid has steps above the magnitude, because
`0.30103` exceeds the decimal logarithm of two; seventeen digits always suffice, so at most twenty
grids are tried.
-/
def Magnitude.shortest (size : Magnitude) : Decimal :=
  if size.mantissa = 0 then ⟨0, 0⟩
  else
    let bits : Int := size.mantissa.log2 + size.exponent + 1
    size.interval.coarsest (bits * 30103 / 100000 + 1) 20

end PanelCalc.Double
