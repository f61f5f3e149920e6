import PanelCalc.Bindings
import PanelCalc.Formula.Basic

/-!
# Evaluating formulas

A program runs on a stack of values: each step takes its operands from the top and puts its value
there. The first step that fails ends the run.
-/

namespace PanelCalc

variable {H : Type}

def Literal.value : Literal → Value H
  | number x => .scalar x
  | text s => .text s
  | noArguments => .list []

/-- The value of a name: the one bound to it, or else the function of that name. -/
def Vocabulary.resolve (v : Vocabulary H) (bindings : Bindings H) (name : String) :
    Except EvalError (Value H) :=
  match bindings.get? name, v.function? name with
  | some value, _ => .ok value
  | none, some entry => .ok (.function entry)
  | none, none => .error (.undefinedVariable name)

variable [HostFunctions H]

/-- The answer of a called value to its arguments. -/
def Value.call (callee arguments : Value H) (alignment : Alignment) :
    Except EvalError (Value H) :=
  match callee with
  | .function entry => entry.invoke alignment arguments.arguments
  | other => .error (.notCallable other.kind.name)

def Vocabulary.applyUnary (v : Vocabulary H) (alignment : Alignment) (symbol : String)
    (x : Value H) : Except EvalError (Value H) :=
  match v.unary? symbol with
  | some entry => entry.apply alignment x
  | none => .error (.unknownOperator symbol)

def Vocabulary.applyBinary (v : Vocabulary H) (alignment : Alignment) (symbol : String)
    (x y : Value H) : Except EvalError (Value H) :=
  match v.binary? symbol with
  | some entry => entry.apply alignment x y
  | none => .error (.unknownOperator symbol)

/-- The stack after a step, the top first. -/
def Step.run (v : Vocabulary H) (bindings : Bindings H) (alignment : Alignment)
    (stack : List (Value H)) (step : Step) : Except EvalError (List (Value H)) := do
  match step, stack with
  | .literal value, stack => return value.value :: stack
  | .var name, stack => return (← v.resolve bindings name) :: stack
  | .unary symbol, x :: stack => return (← v.applyUnary alignment symbol x) :: stack
  | .binary symbol, y :: x :: stack => return (← v.applyBinary alignment symbol x y) :: stack
  | .call, arguments :: callee :: stack => return (← callee.call arguments alignment) :: stack
  | step, _ => throw (.stackUnderflow step.label)

def Formula.evaluate (f : Formula H) (bindings : Bindings H) (alignment : Alignment) :
    Except EvalError (Value H) := do
  match ← f.program.foldlM (Step.run f.vocabulary bindings alignment) [] with
  | [value] => return value
  | stack => throw (.parity stack.length)

end PanelCalc
