import PanelCalc.Arity

/-!
# Built-in functions

The functions that every vocabulary knows, with their names and arities.
-/

namespace PanelCalc

/-- Functions that work cell by cell. -/
inductive CellFunction where
  | select
  | tail
  | signedPower
  | min
  | max
  | power
deriving DecidableEq, Repr

/-- Functions of the trailing window of a history. -/
inductive WindowFunction where
  | mean
  | stdDev
  | sum
  | skewness
  | kurtosis
  | least
  | greatest
  | product
  | countMissing
  | linearDecay
deriving DecidableEq, Repr

/-- Functions of the trailing windows of two histories. -/
inductive PairFunction where
  | correlation
  | covariance
deriving DecidableEq, Repr

/-- Functions of a cell and an earlier one. -/
inductive ShiftFunction where
  | delay
  | delta
deriving DecidableEq, Repr

inductive Builtin where
  | cellwise (f : CellFunction)
  | rolling (f : WindowFunction)
  | rollingPair (f : PairFunction)
  | shifted (f : ShiftFunction)
  | exponentialDecay
  | step
  | rank
  | groupRank
  | conditionRank
deriving DecidableEq, Repr

def CellFunction.name : CellFunction → String
  | select => "If"
  | tail => "Tail"
  | signedPower => "SignedPower"
  | min => "Min"
  | max => "Max"
  | power => "Pow"

def CellFunction.argumentCount : CellFunction → Nat
  | select => 3
  | tail => 4
  | signedPower | min | max | power => 2

def WindowFunction.name : WindowFunction → String
  | mean => "Ts_Mean"
  | stdDev => "StdDev"
  | sum => "Sum"
  | skewness => "Ts_Skewness"
  | kurtosis => "Ts_Kurtosis"
  | least => "Ts_Min"
  | greatest => "Ts_Max"
  | product => "Product"
  | countMissing => "CountNans"
  | linearDecay => "Decay_linear"

def PairFunction.name : PairFunction → String
  | correlation => "Correlation"
  | covariance => "Covariance"

def ShiftFunction.name : ShiftFunction → String
  | delay => "Delay"
  | delta => "Delta"

namespace Builtin

def name : Builtin → String
  | cellwise f => f.name
  | rolling f => f.name
  | rollingPair f => f.name
  | shifted f => f.name
  | exponentialDecay => "Decay_exp"
  | step => "Step"
  | rank => "Rank"
  | groupRank => "GroupRank"
  | conditionRank => "ConditionRank"

def argumentCount : Builtin → Nat
  | cellwise f => f.argumentCount
  | rolling _ | shifted _ | step | groupRank | conditionRank => 2
  | rollingPair _ | exponentialDecay => 3
  | rank => 1

def all : List Builtin :=
  [.select, .tail, .signedPower, .min, .max, .power].map cellwise ++
  [.mean, .stdDev, .sum, .skewness, .kurtosis, .least, .greatest, .product, .countMissing,
    .linearDecay].map rolling ++
  [.correlation, .covariance].map rollingPair ++
  [.delay, .delta].map shifted ++
  [exponentialDecay, step, rank, groupRank, conditionRank]

/-- No built-in function is left out of the list. -/
theorem mem_all (f : Builtin) : f ∈ all := by
  cases f with
  | cellwise f => cases f <;> decide
  | rolling f => cases f <;> decide
  | rollingPair f => cases f <;> decide
  | shifted f => cases f <;> decide
  | _ => decide

end Builtin

end PanelCalc
