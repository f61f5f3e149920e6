import PanelCalc.Formula.Program

/-! # Trees and their postorder

A program in postfix order is the postorder of one tree. An argument list is a
tree of commas, and the list of a call without arguments is a literal of its
own. -/
namespace PanelCalc

/-- The structure that a formula has once priorities have been settled. -/
inductive Tree where
  | literal (value : Literal)
  | name (name : String)
  | unary (symbol : String) (operand : Tree)
  | binary (symbol : String) (left right : Tree)
  | call (callee arguments : Tree)
deriving DecidableEq

namespace Tree

/-- The steps of a tree, operands first. -/
def postorder : Tree → Program
  | literal value => [.literal value]
  | name n => [.var n]
  | unary symbol x => x.postorder ++ [.unary symbol]
  | binary symbol x y => x.postorder ++ y.postorder ++ [.binary symbol]
  | call callee x => callee.postorder ++ x.postorder ++ [.call]

/-- The number of leaves. -/
def operands : Tree → Nat
  | literal _ | name _ => 1
  | unary _ x => x.operands
  | binary _ x y | call x y => x.operands + y.operands

/-- The number of nodes with two children. -/
def joins : Tree → Nat
  | literal _ | name _ => 0
  | unary _ x => x.joins
  | binary _ x y | call x y => x.joins + y.joins + 1

theorem operands_eq (t : Tree) : t.operands = t.joins + 1 := by
  induction t with
  | literal _ | name _ => rfl
  | unary _ _ ih => exact ih
  | binary _ _ _ ihx ihy | call _ _ ihx ihy => simp only [operands, joins, ihx, ihy]; omega

end Tree

/-- What a step makes of the trees before it, the latest first. -/
def Step.grow : List Tree → Step → Option (List Tree)
  | ts, .literal value => some (.literal value :: ts)
  | ts, .var name => some (.name name :: ts)
  | x :: ts, .unary symbol => some (.unary symbol x :: ts)
  | y :: x :: ts, .binary symbol => some (.binary symbol x y :: ts)
  | x :: callee :: ts, .call => some (.call callee x :: ts)
  | _, _ => none

/-- Running a postorder puts its tree on top of whatever was there. -/
theorem Tree.foldlM_grow_postorder (t : Tree) (ts : List Tree) :
    t.postorder.foldlM Step.grow ts = some (t :: ts) := by
  induction t generalizing ts with
  | literal _ | name _ => rfl
  | unary symbol x ih => simp [postorder, ih, Step.grow]
  | binary symbol x y ihx ihy => simp [postorder, ihx, ihy, Step.grow]
  | call callee x ihc ihx => simp [postorder, ihc, ihx, Step.grow]

/-- A program is the postorder of at most one tree. -/
theorem Tree.postorder_injective {t u : Tree} (h : t.postorder = u.postorder) : t = u := by
  have ht := foldlM_grow_postorder t []
  rw [h, foldlM_grow_postorder u []] at ht
  simpa using ht.symm

end PanelCalc
