import PanelCalc.Proofs.Evaluation.Refusals
import PanelCalc.Proofs.Formula.TreeValues

/-! # Faults of the stack

A program that is not well formed finds too few values on the stack, or leaves
other than one. Nothing that is built in reports such a fault itself, and no
tree has it. So a formula that is the postorder of a tree shows one only if an
operator or function of the host program makes it up. -/
namespace PanelCalc

/-- Whether an error is about the number of values on the stack. -/
def EvalError.isStackFault : EvalError → Bool
  | parity _ | stackUnderflow _ => true
  | _ => false

variable {H : Type} {a : Alignment}

theorem EvalError.isStackFault_of_isRefusal {e : EvalError} (h : e.isRefusal = true) :
    e.isStackFault = false := by
  cases e with
  | parity _ | stackUnderflow _ => cases h
  | _ => rfl

/-! ## Vocabularies -/

namespace Vocabulary

variable {v : Vocabulary H} [HostFunctions H]

/-- An operator or a function that the host program supplies answers with the error. -/
inductive HostFails (v : Vocabulary H) (a : Alignment) (e : EvalError) : Prop
  | unary {entry x} : entry ∈ v.unary → entry ∉ (builtin v.caseStyle).unary →
      entry.apply a x = .error e → HostFails v a e
  | binary {entry x y} : entry ∈ v.binary → entry ∉ (builtin v.caseStyle).binary →
      entry.apply a x y = .error e → HostFails v a e
  | function {f : H} {arguments} : HostFunctions.call f a arguments = .error e → HostFails v a e

/-- An answer that is no fault of the stack, unless the host program makes it up. -/
abbrev Excused {α : Type} (v : Vocabulary H) (a : Alignment) : Except EvalError α → Prop :=
  FailsBy fun e => e.isStackFault = true → v.HostFails a e

/-- Every operator of a vocabulary declines, whoever supplies it. -/
theorem declines_unary {entry : UnaryEntry H} (h : entry ∈ v.unary) (x : Value H) :
    Declines (v.HostFails a) (entry.apply a x) := by
  by_cases hb : entry ∈ (builtin v.caseStyle).unary
  · exact (Refuses.of_mem_unary hb x).declines
  · cases hx : entry.apply a x with
    | ok y => exact .ok
    | error e => exact .error (.inr (.unary h hb hx))

theorem declines_binary {entry : BinaryEntry H} (h : entry ∈ v.binary) (x y : Value H) :
    Declines (v.HostFails a) (entry.apply a x y) := by
  by_cases hb : entry ∈ (builtin v.caseStyle).binary
  · exact (Refuses.of_mem_binary hb x y).declines
  · cases hx : entry.apply a x y with
    | ok z => exact .ok
    | error e => exact .error (.inr (.binary h hb hx))

theorem declines_call (callee arguments : Value H) :
    Declines (v.HostFails a) (callee.call arguments a) :=
  .call fun _ _ _ _ _ => .function

theorem excused_of_declines {α : Type} {x : Except EvalError α}
    (h : Declines (v.HostFails a) x) : v.Excused a x := by
  refine h.imp fun e he hs => he.resolve_left fun hr => ?_
  rw [EvalError.isStackFault_of_isRefusal hr] at hs
  cases hs

theorem excused_resolve {b : Bindings H} (name : String) : v.Excused a (v.resolve b name) := by
  unfold resolve
  split
  · exact .ok
  · exact .ok
  · exact .error fun h => by cases h

theorem excused_applyUnary (symbol : String) (x : Value H) :
    v.Excused a (v.applyUnary a symbol x) := by
  unfold applyUnary
  split
  · exact excused_of_declines (declines_unary (List.mem_of_find?_eq_some ‹_›) x)
  · exact .error fun h => by cases h

theorem excused_applyBinary (symbol : String) (x y : Value H) :
    v.Excused a (v.applyBinary a symbol x y) := by
  unfold applyBinary
  split
  · exact excused_of_declines (declines_binary (List.mem_of_find?_eq_some ‹_›) x y)
  · exact .error fun h => by cases h

theorem excused_call (callee arguments : Value H) : v.Excused a (callee.call arguments a) :=
  excused_of_declines (declines_call callee arguments)

end Vocabulary

/-- **A tree has no fault of the stack** that the host program does not make up. -/
theorem Tree.excused [HostFunctions H] {v : Vocabulary H} {b : Bindings H} (t : Tree) :
    v.Excused a (t.evaluate v b a) := by
  induction t with
  | literal value => exact .ok
  | name n => exact Vocabulary.excused_resolve n
  | unary s x ih => exact ih.bind fun x => Vocabulary.excused_applyUnary s x
  | binary s x y ihx ihy =>
    exact ihx.bind fun x => ihy.bind fun y => Vocabulary.excused_applyBinary s x y
  | call callee x ihc ihx =>
    exact ihc.bind fun callee => ihx.bind fun x => Vocabulary.excused_call callee x

end PanelCalc
