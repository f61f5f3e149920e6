import PanelCalc.Formula.Eval
import PanelCalc.Proofs.Storage.Functions
import PanelCalc.Vocabulary.Builtin

/-! # Evaluations over buffers

An evaluation over the built-in vocabulary in which every place of a buffer is
checked before it is read or written. It gives what an evaluation gives that
looks at cells only, so it never meets a fault. -/
namespace PanelCalc

namespace Storage

open Vocabulary (namedUnaryFunctions binaryFunctions)

variable {H : Type} {alignment : Alignment}

/-! ## Operators -/

/-- The value of a function of one number. -/
def cellUnary (name : String) (f : Float → Float) (alignment : Alignment) (x : Value H) :
    Checked EvalError (Value H) :=
  cellwise alignment name [x] fun
    | [x] => f x
    | _ => Cell.missing

/-- The value of a function of two numbers. -/
def cellBinary (name : String) (f : Float → Float → Float) (alignment : Alignment)
    (x y : Value H) : Checked EvalError (Value H) :=
  cellwise alignment name [x, y] fun
    | [x, y] => f x y
    | _ => Cell.missing

/-- The value of a built-in operator before its operand. -/
def applyUnary (caseStyle : CaseStyle) (alignment : Alignment) (symbol : String) (x : Value H) :
    Checked EvalError (Value H) :=
  match (("-", (- ·)) :: namedUnaryFunctions).find? (caseStyle.spell ·.1 == symbol) with
  | some (name, f) => cellUnary name f alignment x
  | none => throw (.error (.unknownOperator symbol))

/-- The value of a built-in operator between its operands. -/
def applyBinary (caseStyle : CaseStyle) (alignment : Alignment) (symbol : String)
    (x y : Value H) : Checked EvalError (Value H) :=
  match binaryFunctions.find? (caseStyle.spell ·.1 == symbol) with
  | some (name, _, f) => cellBinary name f alignment x y
  | none =>
    if symbol = "," then return x.append y
    else throw (.error (.unknownOperator symbol))

theorem spell_minus (caseStyle : CaseStyle) : caseStyle.spell "-" = "-" := by
  cases caseStyle <;> rfl

theorem applyUnary_eq (h : alignment.Regular) (caseStyle : CaseStyle) (symbol : String)
    (x : Value H) : applyUnary caseStyle alignment symbol x =
      lift ((Vocabulary.builtin caseStyle).applyUnary alignment symbol x) := by
  unfold applyUnary Vocabulary.applyUnary Vocabulary.unary? Vocabulary.builtin
  simp only [List.find?_cons, List.find?_map, Function.comp_def, spell_minus]
  cases "-" == symbol with
  | true => exact cellwise_eq h "-" [x] _
  | false =>
    cases namedUnaryFunctions.find? (caseStyle.spell ·.1 == symbol) with
    | none => rfl
    | some f => exact cellwise_eq h f.1 [x] _

theorem applyBinary_eq (h : alignment.Regular) (caseStyle : CaseStyle) (symbol : String)
    (x y : Value H) : applyBinary caseStyle alignment symbol x y =
      lift ((Vocabulary.builtin caseStyle).applyBinary alignment symbol x y) := by
  unfold applyBinary Vocabulary.applyBinary Vocabulary.binary? Vocabulary.builtin
  simp only [List.find?_append, List.find?_map, Function.comp_def]
  cases binaryFunctions.find? (caseStyle.spell ·.1 == symbol) with
  | some f => exact cellwise_eq h f.1 [x, y] _
  | none =>
    by_cases hs : symbol = ","
    · subst hs
      rfl
    · have hcomma : ("," == symbol) = false := beq_false_of_ne (Ne.symm hs)
      simp only [if_neg hs, Option.map_none, Option.none_or, List.find?_cons, List.find?_nil,
        Vocabulary.commaEntry, hcomma]
      rfl

/-! ## Runs -/

variable [HostFunctions H]

/-- The answer of a function of a vocabulary to its arguments. -/
def invoke (entry : FunctionEntry H) (alignment : Alignment) (arguments : List (Value H)) :
    Checked EvalError (Value H) :=
  if entry.arity.accepts arguments.length then
    match entry.body with
    | .builtin f => call alignment f arguments
    | .host f => lift (HostFunctions.call f alignment arguments)
  else throw (.error (.invalidArity entry.name entry.arity arguments.length))

/-- The answer of a called value to its arguments. -/
def answer (callee arguments : Value H) (alignment : Alignment) : Checked EvalError (Value H) :=
  match callee with
  | .function entry => invoke entry alignment arguments.arguments
  | other => throw (.error (.notCallable other.kind.name))

/-- The stack after a step, the top first. -/
def run (caseStyle : CaseStyle) (bindings : Bindings H) (alignment : Alignment)
    (stack : List (Value H)) (step : Step) : Checked EvalError (List (Value H)) := do
  match step, stack with
  | .literal value, stack => return value.value :: stack
  | .var name, stack =>
    return (← lift ((Vocabulary.builtin caseStyle).resolve bindings name)) :: stack
  | .unary symbol, x :: stack => return (← applyUnary caseStyle alignment symbol x) :: stack
  | .binary symbol, y :: x :: stack => return (← applyBinary caseStyle alignment symbol x y) :: stack
  | .call, arguments :: callee :: stack => return (← answer callee arguments alignment) :: stack
  | step, _ => throw (.error (.stackUnderflow step.label))

/-- The value of a program over the built-in vocabulary. -/
def evaluate (caseStyle : CaseStyle) (program : Program) (bindings : Bindings H)
    (alignment : Alignment) : Checked EvalError (Value H) := do
  match ← program.foldlM (run caseStyle bindings alignment) [] with
  | [value] => return value
  | stack => throw (.error (.parity stack.length))

theorem invoke_eq (h : alignment.Regular) (entry : FunctionEntry H) (arguments : List (Value H)) :
    invoke entry alignment arguments = lift (entry.invoke alignment arguments) := by
  unfold invoke FunctionEntry.invoke
  by_cases ha : entry.arity.accepts arguments.length
  · rw [if_pos ha, if_pos ha]
    cases entry.body with
    | builtin f => exact call_eq h f arguments
    | host f => rfl
  · rw [if_neg ha, if_neg ha]
    rfl

theorem answer_eq (h : alignment.Regular) (callee arguments : Value H) :
    answer callee arguments alignment = lift (callee.call arguments alignment) := by
  cases callee with
  | function entry => exact invoke_eq h entry arguments.arguments
  | _ => rfl

/-- A step stays within the buffers. -/
theorem run_eq (h : alignment.Regular) (caseStyle : CaseStyle) (bindings : Bindings H)
    (stack : List (Value H)) (step : Step) :
    run caseStyle bindings alignment stack step =
      lift (Step.run (Vocabulary.builtin caseStyle) bindings alignment stack step) := by
  cases step with
  | literal value => rfl
  | var name => exact lift_bind_congr fun _ _ => rfl
  | unary symbol =>
    match stack with
    | [] => rfl
    | x :: stack =>
      simp only [run, applyUnary_eq h]
      exact lift_bind_congr fun _ _ => rfl
  | binary symbol =>
    match stack with
    | [] | [_] => rfl
    | y :: x :: stack =>
      simp only [run, applyBinary_eq h]
      exact lift_bind_congr fun _ _ => rfl
  | call =>
    match stack with
    | [] | [_] => rfl
    | arguments :: callee :: stack =>
      simp only [run, answer_eq h]
      exact lift_bind_congr fun _ _ => rfl

theorem foldlM_run_eq (h : alignment.Regular) (caseStyle : CaseStyle) (bindings : Bindings H)
    (stack : List (Value H)) (program : Program) :
    program.foldlM (run caseStyle bindings alignment) stack =
      lift (program.foldlM (Step.run (Vocabulary.builtin caseStyle) bindings alignment) stack) := by
  induction program generalizing stack with
  | nil => rfl
  | cons step program ih =>
    rw [List.foldlM_cons, List.foldlM_cons, run_eq h]
    exact lift_bind_congr fun stack _ => ih stack

/-- **Evaluations stay within the buffers** of their panels. -/
theorem evaluate_eq (h : alignment.Regular) (caseStyle : CaseStyle) (program : Program)
    (bindings : Bindings H) : evaluate caseStyle program bindings alignment =
      lift (Formula.evaluate ⟨program, Vocabulary.builtin caseStyle⟩ bindings alignment) := by
  unfold evaluate Formula.evaluate
  rw [foldlM_run_eq h]
  refine lift_bind_congr fun stack _ => ?_
  match stack with
  | [] | [_] | _ :: _ :: _ => rfl

end Storage

end PanelCalc
