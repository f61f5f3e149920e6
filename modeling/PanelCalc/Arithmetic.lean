/-!
# Arithmetic

The operations that window statistics are written in. A statistic defined over them runs on doubles
and can be read over any other kind of number as well.
-/

namespace PanelCalc

/-- Numbers that can be added, multiplied, divided, compared and rooted. -/
class Arithmetic (α : Type) extends Add α, Sub α, Mul α, Div α, LT α, LE α where
  /-- A count as a number. -/
  ofNat : Nat → α
  /-- The square root. -/
  sqrt : α → α
  /-- The distance from zero. -/
  abs : α → α
  /-- Whether the number is neither infinite nor undefined. -/
  isFinite : α → Bool
  /-- The strict order can be tested. -/
  decLT : DecidableLT α
  /-- The order can be tested. -/
  decLE : DecidableLE α

namespace Arithmetic

variable {α : Type} [Arithmetic α]

instance : DecidableLT α := decLT

instance : DecidableLE α := decLE

/--
The remaining factors of a power. `square` is the base raised to the power of two reached; each
binary digit of the exponent, lowest first, multiplies the product by it or leaves it out.
-/
def powerFrom (product square : α) (exponent : Nat) : α :=
  let product := if exponent % 2 = 1 then product * square else product
  if exponent < 2 then product else powerFrom product (square * square) (exponent / 2)
termination_by exponent
decreasing_by omega

/-- A power by repeated squaring. -/
def power (base : α) (exponent : Nat) : α := powerFrom (ofNat 1) base exponent

end Arithmetic

instance : Arithmetic Float where
  ofNat := Float.ofNat
  sqrt := Float.sqrt
  abs := Float.abs
  isFinite := Float.isFinite
  decLT := Float.decLt
  decLE := Float.decLe

end PanelCalc
