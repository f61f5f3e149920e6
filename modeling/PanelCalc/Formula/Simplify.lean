import PanelCalc.Formula.Eval

/-!
# Simplifying formulas

Operators between numbers are carried out ahead of time. Numbers may stand in the formula or be
given for names; calls and argument lists are left as they are.
-/

namespace PanelCalc

variable {H : Type}

/-- The number that an operator gave, as a step; an operator may give something else. -/
def Step.ofValue (symbol : String) : Value H → Except EvalError Step
  | .scalar x => .ok (.literal (.number x))
  | other => .error (.typeMismatch symbol [.scalar] other.kind)

variable [HostFunctions H]

/-- The simplified steps, latest first, after one more step. -/
def Step.simplify (v : Vocabulary H) (numbers : String → Option Float) (output : List Step)
    (step : Step) : Except EvalError (List Step) := do
  match step, output with
  | .var name, output =>
    match numbers name with
    | some x => return .literal (.number x) :: output
    | none => return step :: output
  | .unary symbol, .literal (.number x) :: output =>
    return (← Step.ofValue symbol (← v.applyUnary .never symbol (.scalar x))) :: output
  | .binary symbol, .literal (.number y) :: .literal (.number x) :: others =>
    if symbol = "," then return step :: output
    else
      return (← Step.ofValue symbol (← v.applyBinary .never symbol (.scalar x) (.scalar y))) ::
        others
  | step, output => return step :: output

/-- The formula with operators between numbers carried out. -/
def Formula.simplify (f : Formula H) (numbers : String → Option Float) :
    Except EvalError (Formula H) := do
  let output ← f.program.foldlM (Step.simplify f.vocabulary numbers) []
  return { f with program := output.reverse }

end PanelCalc
