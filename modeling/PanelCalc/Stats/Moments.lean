import PanelCalc.Arithmetic

/-!
# Moments of a window

Statistics computed in one pass from the sums of powers of the observations. A window with an
observation that is not finite has no moments, and a statistic without enough spread or too few
observations is `none`.
-/

namespace PanelCalc.Stats

open Arithmetic

variable {α : Type} [Arithmetic α]

/-- The number of observations and the sums of their first four powers. -/
structure Moments (α : Type) where
  count : Nat
  sum : α
  squares : α
  cubes : α
  quarts : α

namespace Moments

def zero : Moments α := ⟨0, ofNat 0, ofNat 0, ofNat 0, ofNat 0⟩

def add (m : Moments α) (x : α) : Moments α :=
  let square := x * x
  { count := m.count + 1
    sum := m.sum + x
    squares := m.squares + square
    cubes := m.cubes + square * x
    quarts := m.quarts + square * square }

/-- The moments of a window that is not empty and holds finite observations only. -/
def ofWindow? (window : List α) : Option (Moments α) :=
  if window ≠ [] ∧ window.all isFinite then some (window.foldl add zero) else none

def size (m : Moments α) : α := ofNat m.count

def mean (m : Moments α) : α := m.sum / m.size

/-- The sample variance: the squared deviations over one less than the count, never below zero. -/
def variance (m : Moments α) : α :=
  let spread := m.squares - m.sum * m.sum / m.size
  let variance := spread / (m.size - ofNat 1)
  if ofNat 0 < variance then variance else ofNat 0

def stdDev? (m : Moments α) : Option α :=
  if m.count ≤ 1 then none else some (sqrt m.variance)

/-- A standard deviation that can be divided by. -/
def spread? (m : Moments α) : Option α := do
  let deviation ← m.stdDev?
  if isFinite deviation ∧ ofNat 0 < deviation then some deviation else none

/-- The sum of the cubed deviations from the mean. -/
def cubedDeviations (m : Moments α) : α :=
  let mean := m.mean
  let square := mean * mean
  m.cubes - ofNat 3 * mean * m.squares + ofNat 3 * square * m.sum - m.size * square * mean

/-- The sum of the deviations from the mean raised to the fourth power. -/
def quarticDeviations (m : Moments α) : α :=
  let mean := m.mean
  let square := mean * mean
  let cube := square * mean
  let quart := square * square
  m.quarts - ofNat 4 * mean * m.cubes + ofNat 6 * square * m.squares - ofNat 4 * cube * m.sum
    + m.size * quart

/-- The distance from one to the next double: a smaller denominator is taken for zero. -/
def negligible : α := ofNat 1 / ofNat (Nat.pow 2 52)

/-- The bias-corrected sample skewness, of three observations at least. -/
def skewness? (m : Moments α) : Option α := do
  if m.count ≤ 2 then none
  let deviation ← m.spread?
  let denominator := (m.size - ofNat 1) * (m.size - ofNat 2) * power deviation 3
  if abs denominator ≤ negligible then none
  else some (m.size * m.cubedDeviations / denominator)

/-- The bias-corrected excess kurtosis, of four observations at least. -/
def kurtosis? (m : Moments α) : Option α := do
  if m.count ≤ 3 then none
  let deviation ← m.spread?
  let n := m.size
  let denominator :=
    (n - ofNat 1) * (n - ofNat 2) * (n - ofNat 3) * power deviation 4
  if abs denominator ≤ negligible then none
  else
    let peak := n * (n + ofNat 1) * m.quarticDeviations / denominator
    let normal := ofNat 3 * power (n - ofNat 1) 2 / ((n - ofNat 2) * (n - ofNat 3))
    some (peak - normal)

end Moments

end PanelCalc.Stats
