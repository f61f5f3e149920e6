import PanelCalc.Alignment
import PanelCalc.EvalError

/-!
# Cell-by-cell operations

A function of numbers applied to scalars and panels alike. The panel with the most rows, the first
of several, gives the result its index; every other panel is brought onto it, and a scalar stands
for itself in every cell.
-/

namespace PanelCalc

inductive Operand where
  | scalar (x : Float)
  | panel (p : Panel)

namespace Operand

/-- The operand that a value stands for, with its panel prepared for the operation. -/
def ofValue {H : Type} (alignment : Alignment) (function : String) :
    Value H → Except EvalError Operand
  | .scalar x => .ok (scalar x)
  | .panel p => ((alignment.prepare p).map panel).mapError .shape
  | other => .error (.typeMismatch function [.scalar, .panel] other.kind)

def panel? : Operand → Option Panel
  | scalar _ => none
  | panel p => some p

/-- The number that an operand contributes to a cell. -/
def cell : Operand → Nat → Nat → Float
  | scalar x, _, _ => x
  | panel p, row, col => p.cell row col

/-- The operand on the index of a panel. -/
def conform (alignment : Alignment) (reference : Panel) : Operand → Except EvalError Operand
  | scalar x => .ok (scalar x)
  | panel p => ((alignment.conform reference p).map panel).mapError .shape

end Operand

/-- The panel with the most rows, the first of several. -/
def longest? : List Panel → Option Panel
  | [] => none
  | p :: ps => some (ps.foldl (fun best q => if best.rows < q.rows then q else best) p)

theorem eq_nil_of_longest? {ps : List Panel} (h : longest? ps = none) : ps = [] := by
  cases ps with
  | nil => rfl
  | cons p ps => cases h

/-- The values of `f` cell by cell, given one number per operand. -/
def cellwise {H : Type} (alignment : Alignment) (function : String) (values : List (Value H))
    (f : List Float → Float) : Except EvalError (Value H) := do
  let operands ← values.mapM (Operand.ofValue alignment function)
  match longest? (operands.filterMap Operand.panel?) with
  | none => return .scalar (f (operands.map (·.cell 0 0)))
  | some reference =>
    let operands ← operands.mapM (Operand.conform alignment reference)
    return .panel (reference.remap fun row col => f (operands.map (·.cell row col)))

end PanelCalc
