import PanelCalc.Cell

/-!
# Series

The history of one security, oldest cell first. The functions here give a series of the same length,
with missing cells where the history does not reach back far enough.
-/

namespace PanelCalc.Series

/-- For every cell the window of the `n` latest cells up to it, if there are as many. -/
def windows {α : Type} (n : Nat) (xs : List α) : List (Option (List α)) :=
  List.replicate (min (n - 1) xs.length) none ++
    (List.range (xs.length + 1 - n)).map fun start => some ((xs.drop start).take n)

def rolling (n : Nat) (reduce : List Float → Float) (xs : List Float) : List Float :=
  (windows n xs).map fun window => (window.map reduce).getD Cell.missing

/-- The reduced pairs of windows of `n` cells of two series. -/
def rollingPair (n : Nat) (reduce : List Float → List Float → Float) (xs ys : List Float) :
    List Float :=
  List.zipWith (fun
    | some wx, some wy => reduce wx wy
    | _, _ => Cell.missing) (windows n xs) (windows n ys)

/-- The values of `f` at every cell and the one `n` places before it. -/
def shifted (n : Nat) (f : Float → Float → Float) (xs : List Float) : List Float :=
  List.replicate (min n xs.length) Cell.missing ++ List.zipWith f (xs.drop n) xs

/-- Numbers that grow by one from cell to cell up to `last`. -/
def countUpTo (last : Float) (xs : List Float) : List Float :=
  (List.range xs.length).reverse.map fun left => last - Float.ofNat left

end PanelCalc.Series
