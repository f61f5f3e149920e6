import PanelCalc.Formula.Eval
import PanelCalc.Proofs.Evaluation.Answers
import PanelCalc.Proofs.Vocabulary.BuiltinOperators

/-! # What built-in operators and functions turn down

All that is built in fails in one way only: it turns down the arguments it is
given, for their number, their kind, their value or their shape. Names, unknown
operators and the stack are no matter of its own. -/
namespace PanelCalc

/-- Whether an error is that of a call which turns down what it is given. -/
def EvalError.isRefusal : EvalError → Bool
  | notCallable _ | invalidArity _ _ _ | invalidArgument _ _ | typeMismatch _ _ _ | shape _ => true
  | undefinedVariable _ | unknownOperator _ | parity _ | stackUnderflow _ => false

/-- An answer that fails by a refusal, if at all. -/
abbrev Refuses {α : Type} : Except EvalError α → Prop :=
  FailsBy (·.isRefusal = true)

variable {H : Type} {a : Alignment}

namespace Refuses

variable {α : Type} {x : Value H} {function : String}

theorem shape (y : Except ShapeError α) : Refuses (y.mapError EvalError.shape) :=
  .mapError fun _ => rfl

theorem toScalar : Refuses (x.toScalar function) := by
  cases x with
  | scalar x => exact .ok
  | _ => exact .error rfl

theorem toPanel : Refuses (x.toPanel function) := by
  cases x with
  | panel p => exact .ok
  | _ => exact .error rfl

theorem toWindow : Refuses (x.toWindow function) := by
  refine toScalar.bind fun length => ?_
  split
  · exact .ok
  · exact .error rfl

theorem toShift : Refuses (x.toShift function) := by
  refine toScalar.bind fun distance => ?_
  split
  · exact .ok
  · exact .error rfl

theorem ofValue : Refuses (Operand.ofValue a function x) := by
  cases x with
  | scalar x => exact .ok
  | panel p => exact shape _
  | _ => exact .error rfl

theorem conform {reference : Panel} (operand : Operand) :
    Refuses (operand.conform a reference) := by
  cases operand with
  | scalar x => exact .ok
  | panel p => exact shape _

theorem cellwise {xs : List (Value H)} {f : List Float → Float} :
    Refuses (cellwise a function xs f) := by
  refine (FailsBy.mapM fun _ => ofValue).bind fun operands => ?_
  split
  · exact .ok
  · exact (FailsBy.mapM conform).bind fun _ => .ok

theorem cellUnary {f : Float → Float} : Refuses (Vocabulary.cellUnary function f a x) := by
  unfold Vocabulary.cellUnary
  exact cellwise

theorem cellBinary {f : Float → Float → Float} {y : Value H} :
    Refuses (Vocabulary.cellBinary function f a x y) := by
  unfold Vocabulary.cellBinary
  exact cellwise

/-- **Built-in functions fail by refusals only.** -/
theorem call (f : Builtin) (xs : List (Value H)) : Refuses (f.call a xs) := by
  unfold Builtin.call
  split
  · split
    · exact cellwise
    · exact .error rfl
  · exact toWindow.bind fun _ => toPanel.bind fun _ => .ok
  · exact toWindow.bind fun _ => toPanel.bind fun _ => toPanel.bind fun _ =>
      (shape _).bind fun _ => .ok
  · exact toShift.bind fun _ => toPanel.bind fun _ => .ok
  · exact toWindow.bind fun _ => toScalar.bind fun _ => toPanel.bind fun _ => .ok
  · exact toScalar.bind fun _ => toPanel.bind fun _ => .ok
  · exact toPanel.bind fun _ => (shape _).bind fun _ => .ok
  · exact toPanel.bind fun _ => (shape _).bind fun _ => toPanel.bind fun _ =>
      (shape _).bind fun _ => .ok
  · exact toPanel.bind fun _ => (shape _).bind fun _ => toPanel.bind fun _ =>
      (shape _).bind fun _ => .ok
  · exact .error rfl

theorem of_mem_unary {caseStyle : CaseStyle} {e : UnaryEntry H}
    (h : e ∈ (Vocabulary.builtin caseStyle).unary) (x : Value H) : Refuses (e.apply a x) := by
  obtain ⟨name, f, he⟩ := Vocabulary.apply_of_mem_unary h
  rw [he]
  exact cellUnary

theorem of_mem_binary {caseStyle : CaseStyle} {e : BinaryEntry H}
    (h : e ∈ (Vocabulary.builtin caseStyle).binary) (x y : Value H) :
    Refuses (e.apply a x y) := by
  rcases Vocabulary.apply_of_mem_binary h with rfl | ⟨name, f, he⟩
  · exact .ok
  · rw [he]
    exact cellBinary

end Refuses

/-- An answer that fails by a refusal, or by an error that the host program makes up. -/
abbrev Declines {α : Type} (host : EvalError → Prop) : Except EvalError α → Prop :=
  FailsBy fun e => e.isRefusal = true ∨ host e

theorem Refuses.declines {α : Type} {x : Except EvalError α} (h : Refuses x)
    {host : EvalError → Prop} : Declines host x :=
  h.imp fun _ he => .inl he

/-- A call declines if the function does. Any other value turns the call down. -/
theorem Declines.call [HostFunctions H] {host : EvalError → Prop} {callee arguments : Value H}
    (h : ∀ entry f, callee = .function entry → entry.body = .host f →
      ∀ e, HostFunctions.call f a arguments.arguments = .error e → host e) :
    Declines host (callee.call arguments a) := by
  cases callee with
  | function entry =>
    simp only [Value.call, FunctionEntry.invoke]
    split
    · cases hb : entry.body with
      | builtin f => exact (Refuses.call f _).declines
      | host f =>
        cases hc : HostFunctions.call f a arguments.arguments with
        | ok x => rw [FunctionBody.call, hc]; exact .ok
        | error e => rw [FunctionBody.call, hc]; exact .error (.inr (h entry f rfl hb e hc))
    · exact .error (.inl rfl)
  | _ => exact .error (.inl rfl)

end PanelCalc
