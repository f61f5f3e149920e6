import PanelCalc.Cell
import PanelCalc.Stats.JointMoments
import PanelCalc.Stats.Moments

/-!
# Reducers

What becomes of a window of cells, oldest first. A missing cell makes the result missing, except
where missing cells are counted; an infinite one makes statistics missing and passes through the
rest.
-/

namespace PanelCalc.Stats

def ofMoments (statistic : Moments Float → Option Float) (window : List Float) : Float :=
  (Moments.ofWindow? window >>= statistic).getD Cell.missing

/-- A statistic of the joint moments of two windows, missing where there is none. -/
def ofJointMoments (statistic : JointMoments Float → Option Float) (xs ys : List Float) : Float :=
  (JointMoments.ofWindows? xs ys >>= statistic).getD Cell.missing

/-- The value of a reducer, unless a cell of the window is missing. -/
def ifComplete (reduce : List Float → Float) (window : List Float) : Float :=
  if window.any Float.isNaN then Cell.missing else reduce window

def least : List Float → Float := ifComplete (·.foldl Cell.lesser (1.0 / 0.0))

def greatest : List Float → Float := ifComplete (·.foldl Cell.greater (-1.0 / 0.0))

def product : List Float → Float := ifComplete (·.foldl (· * ·) 1.0)

def countMissing (window : List Float) : Float := Float.ofNat (window.countP Float.isNaN)

/-- The sum of the weighted cells and the sum of the weights. -/
def weightedSums (weighted : List (Float × Float)) : Float × Float :=
  weighted.foldl (fun (sum, weights) (weight, x) => (sum + weight * x, weights + weight)) (0.0, 0.0)

/-- The average with weights that grow by one from the oldest cell to the latest. -/
def linearDecay : List Float → Float :=
  ifComplete fun window =>
    let (sum, weights) := weightedSums (window.zipIdx.map fun (x, age) => (Float.ofNat (age + 1), x))
    sum / weights

/-- The average with weights that are powers of `factor`, the latest cell having weight one. -/
def exponentialDecay (factor : Float) : List Float → Float :=
  ifComplete fun window =>
    let (sum, weights) :=
      weightedSums (window.reverse.zipIdx.map fun (x, age) => (Arithmetic.power factor age, x))
    if weights == 0.0 || !weights.isFinite then Cell.missing else sum / weights

end PanelCalc.Stats
