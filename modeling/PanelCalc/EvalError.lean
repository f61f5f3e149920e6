import PanelCalc.Arity
import PanelCalc.Double.Notation
import PanelCalc.Panel.ShapeError
import PanelCalc.Value

/-!
# Evaluation errors

Why a formula has no value.
-/

namespace PanelCalc

inductive ArgumentFault where
  /-- The length of a window is not a positive integer. -/
  | notAWindow (length : Float)
  /-- The distance of a shift is not a natural number. -/
  | notAShift (distance : Float)
  /-- A function of the host program turns the argument down. -/
  | refused (reason : String)
deriving DecidableEq

/-- The text shown for a fault of an argument. -/
def ArgumentFault.message : ArgumentFault → String
  | notAWindow length =>
    let shown := Double.plain length
    s!"window must be a positive integer, got {shown}"
  | notAShift distance =>
    let shown := Double.plain distance
    s!"shift must be a non-negative integer, got {shown}"
  | refused reason => reason

inductive EvalError where
  | undefinedVariable (name : String)
  /-- Something that is not a function is called. -/
  | notCallable (what : String)
  | unknownOperator (symbol : String)
  /-- A program leaves other than one value. -/
  | parity (remaining : Nat)
  /-- A step of a program finds too few values. -/
  | stackUnderflow (step : String)
  | invalidArity (name : String) (expected : Arity) (actual : Nat)
  | invalidArgument (function : String) (fault : ArgumentFault)
  /-- An operand is none of the kinds that the function takes. -/
  | typeMismatch (function : String) (expected : List Kind) (actual : Kind)
  | shape (error : ShapeError)
deriving DecidableEq

/-- The text shown for an evaluation error. -/
def EvalError.message : EvalError → String
  | undefinedVariable name => s!"undefined variable: {name}"
  | notCallable what => s!"{what} is not a function"
  | unknownOperator symbol => s!"unknown operator `{symbol}`"
  | parity remaining =>
    s!"invalid expression (parity): {remaining} values left on the stack"
  | stackUnderflow step => s!"invalid expression: value stack underflow at `{step}`"
  | invalidArity name expected actual =>
    let count := expected.text
    s!"function `{name}` requires {count} args, got {actual}"
  | invalidArgument function fault =>
    let reason := fault.message
    s!"invalid argument for `{function}`: {reason}"
  | typeMismatch function expected actual =>
    let kinds := " or ".intercalate (expected.map Kind.name)
    let kind := actual.name
    s!"`{function}` expects {kinds}, got {kind}"
  | shape error => error.message

end PanelCalc
