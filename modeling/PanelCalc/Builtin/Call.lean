import PanelCalc.Cellwise
import PanelCalc.Ranking
import PanelCalc.Series
import PanelCalc.Stats.Reducers

/-!
# Calling built-in functions

What each built-in function answers. Arguments are looked at in a fixed order, so that of several
faults always the same one is reported: numbers that steer a function come before its panels.
-/

namespace PanelCalc

variable {H : Type}

/-! ## Arguments -/

namespace Value

def toScalar (function : String) : Value H → Except EvalError Float
  | scalar x => .ok x
  | other => .error (.typeMismatch function [.scalar] other.kind)

def toPanel (function : String) : Value H → Except EvalError Panel
  | panel p => .ok p
  | other => .error (.typeMismatch function [.panel] other.kind)

/-- The length of a window: a positive integer. -/
def toWindow (function : String) (value : Value H) : Except EvalError Nat := do
  let length ← value.toScalar function
  match Double.natural? length with
  | some (n + 1) => return n + 1
  | _ => throw (.invalidArgument function (.notAWindow length))

/-- The distance of a shift: a natural number. -/
def toShift (function : String) (value : Value H) : Except EvalError Nat := do
  let distance ← value.toScalar function
  match Double.natural? distance with
  | some n => return n
  | none => throw (.invalidArgument function (.notAShift distance))

end Value

/-! ## Functions -/

def CellFunction.apply : CellFunction → List Float → Float
  | select, [condition, a, b] => Cell.select condition a b
  | tail, [x, lower, upper, replacement] => Cell.tail x lower upper replacement
  | signedPower, [x, exponent] => Cell.signedPower x exponent
  | min, [a, b] => Cell.min a b
  | max, [a, b] => Cell.max a b
  | power, [base, exponent] => base.pow exponent
  | _, _ => Cell.missing

def WindowFunction.reduce : WindowFunction → List Float → Float
  | mean => Stats.ofMoments (some ·.mean)
  | stdDev => Stats.ofMoments (·.stdDev?)
  | sum => Stats.ofMoments (some ·.sum)
  | skewness => Stats.ofMoments (·.skewness?)
  | kurtosis => Stats.ofMoments (·.kurtosis?)
  | least => Stats.least
  | greatest => Stats.greatest
  | product => Stats.product
  | countMissing => Stats.countMissing
  | linearDecay => Stats.linearDecay

def PairFunction.reduce : PairFunction → List Float → List Float → Float
  | correlation => Stats.ofJointMoments (·.correlation?)
  | covariance => Stats.ofJointMoments (·.covariance?)

/-- What becomes of a cell and an earlier one. -/
def ShiftFunction.apply : ShiftFunction → Float → Float → Float
  | delay, _, earlier => earlier
  | delta, current, earlier => current - earlier

namespace Builtin

def rebased (alignment : Alignment) (p : Panel) : Except EvalError Panel :=
  (alignment.rebase p).mapError .shape

/-- The answer to a number of arguments that the function does not take. -/
def refuse (f : Builtin) (arguments : List (Value H)) : Except EvalError (Value H) :=
  .error (.invalidArity f.name (.exact f.argumentCount) arguments.length)

/-- The answer of a built-in function. -/
def call (alignment : Alignment) (f : Builtin) (arguments : List (Value H)) :
    Except EvalError (Value H) := do
  match f, arguments with
  | cellwise g, arguments =>
    if arguments.length = g.argumentCount then
      PanelCalc.cellwise alignment g.name arguments g.apply
    else f.refuse arguments
  | rolling g, [x, n] =>
    let n ← n.toWindow g.name
    let x ← x.toPanel g.name
    return .panel (x.mapColumns fun _ => Series.rolling n g.reduce)
  | rollingPair g, [x, y, n] =>
    let n ← n.toWindow g.name
    let x ← x.toPanel g.name
    let y ← y.toPanel g.name
    let (x, y) ← (alignment.reconcile x y).mapError .shape
    return .panel (x.mapColumns fun col xs => Series.rollingPair n g.reduce xs (y.colCells col))
  | shifted g, [x, n] =>
    let n ← n.toShift g.name
    let x ← x.toPanel g.name
    return .panel (x.mapColumns fun _ => Series.shifted n g.apply)
  | exponentialDecay, [x, factor, n] =>
    let n ← n.toWindow f.name
    let factor ← factor.toScalar f.name
    let x ← x.toPanel f.name
    return .panel (x.mapColumns fun _ => Series.rolling n (Stats.exponentialDecay factor))
  | step, [x, n] =>
    let n ← n.toScalar f.name
    let x ← x.toPanel f.name
    return .panel (x.mapColumns fun _ => Series.countUpTo n)
  | rank, [x] =>
    let x ← rebased alignment (← x.toPanel f.name)
    return .panel (x.mapRows fun _ => Ranking.all)
  | groupRank, [x, groups] =>
    let x ← rebased alignment (← x.toPanel f.name)
    let groups ← (alignment.conform x (← groups.toPanel f.name)).mapError .shape
    return .panel (x.mapRows fun row => Ranking.byGroup (groups.rowCells row))
  | conditionRank, [x, condition] =>
    let x ← rebased alignment (← x.toPanel f.name)
    let condition ← (alignment.conform x (← condition.toPanel f.name)).mapError .shape
    return .panel (x.mapRows fun row => Ranking.byCondition (condition.rowCells row))
  | _, arguments => f.refuse arguments

end Builtin

end PanelCalc
