import PanelCalc.Formula.Eval
import PanelCalc.Proofs.Syntax.Tree

/-! # Values of trees

A tree is evaluated by recursion, operands from left to right, without any
stack. Running its postorder comes to the same value or the same error. -/
namespace PanelCalc

variable {H : Type} [HostFunctions H]

/-- The value of a tree. The first operand that has none decides on the error. -/
def Tree.evaluate (v : Vocabulary H) (b : Bindings H) (a : Alignment) :
    Tree → Except EvalError (Value H)
  | literal value => .ok value.value
  | name n => v.resolve b n
  | unary s x => do
    let x ← x.evaluate v b a
    v.applyUnary a s x
  | binary s x y => do
    let x ← x.evaluate v b a
    let y ← y.evaluate v b a
    v.applyBinary a s x y
  | call callee x => do
    let callee ← callee.evaluate v b a
    let x ← x.evaluate v b a
    callee.call x a

variable {v : Vocabulary H} {b : Bindings H} {a : Alignment}

/-- Running a postorder puts the value of its tree on top of whatever was there. -/
theorem Tree.foldlM_run_postorder (t : Tree) (stack : List (Value H)) :
    t.postorder.foldlM (Step.run v b a) stack = do
      let x ← t.evaluate v b a
      return x :: stack := by
  induction t generalizing stack with
  | literal value => rfl
  | name n => exact bind_pure _
  | unary s x ih =>
    simp only [postorder, List.foldlM_append, ih, evaluate, bind_assoc, pure_bind,
      List.foldlM_cons, List.foldlM_nil, bind_pure, Step.run]
  | binary s x y ihx ihy =>
    simp only [postorder, List.foldlM_append, ihx, ihy, evaluate, bind_assoc, pure_bind,
      List.foldlM_cons, List.foldlM_nil, bind_pure, Step.run]
  | call callee x ihc ihx =>
    simp only [postorder, List.foldlM_append, ihc, ihx, evaluate, bind_assoc, pure_bind,
      List.foldlM_cons, List.foldlM_nil, bind_pure, Step.run]

/-- **A formula has the value of its tree**, or fails with the same error. -/
theorem Formula.evaluate_postorder (t : Tree) :
    Formula.evaluate ⟨t.postorder, v⟩ b a = t.evaluate v b a := by
  unfold Formula.evaluate
  simp only [t.foldlM_run_postorder]
  cases t.evaluate v b a <;> rfl

end PanelCalc
