import PanelCalc.Arithmetic

/-!
# Moments of two windows

Covariance and correlation of two windows of equal length, from the sums of the observations, their
squares and their products.
-/

namespace PanelCalc.Stats

open Arithmetic

variable {α : Type} [Arithmetic α]

/-- The number of pairs of observations and the sums over them. -/
structure JointMoments (α : Type) where
  count : Nat
  sumX : α
  sumY : α
  squaresX : α
  squaresY : α
  products : α

namespace JointMoments

def zero : JointMoments α := ⟨0, ofNat 0, ofNat 0, ofNat 0, ofNat 0, ofNat 0⟩

def add (m : JointMoments α) (pair : α × α) : JointMoments α :=
  let (x, y) := pair
  { count := m.count + 1
    sumX := m.sumX + x
    sumY := m.sumY + y
    squaresX := m.squaresX + x * x
    squaresY := m.squaresY + y * y
    products := m.products + x * y }

/-- The moments of two windows of one length that are not empty and hold finite observations. -/
def ofWindows? (xs ys : List α) : Option (JointMoments α) :=
  if xs ≠ [] ∧ xs.length = ys.length ∧ xs.all isFinite ∧ ys.all isFinite then
    some ((xs.zip ys).foldl add zero)
  else none

def size (m : JointMoments α) : α := ofNat m.count

/-- The sum of the products of the deviations from the two means. -/
def codeviations (m : JointMoments α) : α := m.products - m.sumX * m.sumY / m.size

def deviationsX (m : JointMoments α) : α := m.squaresX - m.sumX * m.sumX / m.size

def deviationsY (m : JointMoments α) : α := m.squaresY - m.sumY * m.sumY / m.size

def covariance? (m : JointMoments α) : Option α :=
  if m.count ≤ 1 then none else some (m.codeviations / (m.size - ofNat 1))

/-- A window whose squared deviations do not exceed this is flat. -/
def flatness : α := ofNat 1 / ofNat (Nat.pow 10 12)

/-- The correlation of two windows neither of which is flat. -/
def correlation? (m : JointMoments α) : Option α :=
  if m.deviationsX ≤ flatness ∨ m.deviationsY ≤ flatness then none
  else some (m.codeviations / (sqrt m.deviationsX * sqrt m.deviationsY))

end JointMoments

end PanelCalc.Stats
