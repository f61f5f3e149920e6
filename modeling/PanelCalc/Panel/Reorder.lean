import PanelCalc.Panel.Basic

/-!
# Reordering securities

The columns of a panel brought into another order of its securities.
-/

namespace PanelCalc.Panel

/-- A security that stands in one of two lists only; the empty name if there is none. -/
def unshared (order symbols : List String) : String :=
  match order.find? (!symbols.contains ·) with
  | some symbol => symbol
  | none => (symbols.find? (!order.contains ·)).getD ""

def columnsOf (p : Panel) (order : List String) : Except ShapeError (List Nat) :=
  order.mapM fun symbol =>
    match p.symbolIndex? symbol with
    | some col => .ok col
    | none => .error (.securityMismatch symbol)

/-- The panel with its securities in the given order. -/
def reorder (p : Panel) (order : List String) : Except ShapeError Panel := do
  if order.length ≠ p.cols then
    throw (.securityMismatch (unshared order p.symbols))
  let columns ← p.columnsOf order
  return tabulate p.dates order fun row col => p.cell row (columns.getD col 0)

end PanelCalc.Panel
