import PanelCalc.Cell

/-!
# Ranks

The rank of a cell among the selected cells of a row: the average of the places that it and the cells
equal to it take when these cells are put in increasing order. Cells that are missing or not selected
have no rank.
-/

namespace PanelCalc.Ranking

/-- Whether `a` may stand before `b` in increasing order; missing cells come first. -/
def precedes (a b : Float) : Bool := a.isNaN || a ≤ b

/--
The average place of `x`, from one on, among cells in increasing order. With `less` of them below it
and `ties` equal to it, these take the places from `less + 1` to `less + ties`.
-/
def averagePlace (sorted : List Float) (x : Float) : Float :=
  let less := (sorted.takeWhile (· < x)).length
  let ties := ((sorted.drop less).takeWhile (· == x)).length
  Float.ofNat (less + 1 + (less + ties)) * 0.5

def selected (selection : List Bool) (cells : List Float) : List Float :=
  let chosen := cells.zip selection
  let peers := chosen.filterMap fun (x, isChosen) =>
    if isChosen && !x.isNaN then some x else none
  let sorted := peers.mergeSort precedes
  chosen.map fun (x, isChosen) =>
    if isChosen && !x.isNaN then averagePlace sorted x else Cell.missing

def all (cells : List Float) : List Float := selected (cells.map fun _ => true) cells

/-- The ranks of the cells whose condition is known and true. -/
def byCondition (conditions cells : List Float) : List Float :=
  selected (conditions.map fun x => Cell.isTrue x && !x.isNaN) cells

/-- The ranks of the cells among those with the same group value; a missing value is no group. -/
def byGroup (groups cells : List Float) : List Float :=
  groups.zipIdx.map fun (group, col) =>
    (selected (groups.map (· == group)) cells).getD col Cell.missing

end PanelCalc.Ranking
