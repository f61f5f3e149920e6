import PanelCalc.Proofs.Panel.Aligning
import PanelCalc.Proofs.Panel.Cells

/-! # Mapping the cells of a panel before it is aligned

Aligning a panel moves its cells and leaves some missing, by its index alone.
So a function that keeps the missing cell missing may be applied before or
after: the cells are the same, and so are the errors. -/
namespace PanelCalc

variable {f : Float → Float}

namespace Panel

/-- Also outside of the panel, where every cell is missing. -/
theorem cell_map (hf : f Cell.missing = Cell.missing) (p : Panel) (row col : Nat) :
    (p.map f).cell row col = f (p.cell row col) := by
  have hvalues : (p.map f).values = p.values.map f := by
    refine Array.ext (by rw [Array.size_map, size_eq, size_eq]; rfl) fun i hi _ => ?_
    have hi' : i < p.dates.length * p.symbols.length := by simpa [map, remap, tabulate] using hi
    have hposition : i / p.symbols.length * p.symbols.length + i % p.symbols.length = i :=
      Nat.div_add_mod' i _
    simp [map, remap, tabulate, cell, cols, hposition, hi', p.size_eq]
  have hcols : (p.map f).cols = p.cols := rfl
  rw [cell, cell, hvalues, hcols, Array.getD_eq_getD_getElem?, Array.getD_eq_getD_getElem?,
    Array.getElem?_map]
  cases p.values[row * p.cols + col]? with
  | some x => rfl
  | none => exact hf.symm

/-- A panel and its image. -/
def Mapped (f : Float → Float) (p q : Panel) : Prop := q = p.map f

theorem mapped_tabulate (hf : f Cell.missing = Cell.missing) {dates : List Date}
    {symbols : List String} {g g' : Nat → Nat → Float}
    (h : ∀ row col, g' row col = f (g row col)) :
    Mapped f (tabulate dates symbols g) (tabulate dates symbols g') := by
  refine ext_cell rfl rfl fun row (hr : row < dates.length) col (hc : col < symbols.length) => ?_
  rw [cell_map hf, cell_tabulate _ hr hc, cell_tabulate _ hr hc, h]

theorem align_map (hf : f Cell.missing = Cell.missing) (p : Panel) (a : Announcements)
    (days : List Date) : Alike (Mapped f) (p.align a days) ((p.map f).align a days) := by
  unfold align
  refine (Follows.of_eq rfl).bind fun _ _ _ => ?_
  have hrows : (p.map f).rows = p.rows := rfl
  rw [hrows]
  by_cases h : p.rows ≠ a.rows.length
  · rw [if_pos h, if_pos h]
    exact .error
  · rw [if_neg h, if_neg h]
    refine (Follows.of_eq rfl).bind fun columns _ hcolumns => .ok ?_
    subst hcolumns
    refine mapped_tabulate hf fun day col => ?_
    cases (columns.getD col []).getD day none with
    | some row => exact cell_map hf p row col
    | none => exact hf.symm

theorem reorder_map (hf : f Cell.missing = Cell.missing) (p : Panel) (order : List String) :
    Alike (Mapped f) (p.reorder order) ((p.map f).reorder order) := by
  unfold reorder
  have hcols : (p.map f).cols = p.cols := rfl
  rw [hcols]
  by_cases h : order.length ≠ p.cols
  · rw [if_pos h, if_pos h]
    exact .error
  · rw [if_neg h, if_neg h]
    refine (Follows.of_eq rfl).bind fun columns _ hcolumns => .ok ?_
    subst hcolumns
    exact mapped_tabulate hf fun row col => cell_map hf p row _

end Panel

namespace Alignment

open Panel

theorem inOrder_map (hf : f Cell.missing = Cell.missing) (order : List String) (p : Panel) :
    Alike (Mapped f) (inOrder order p) (inOrder order (p.map f)) := by
  unfold inOrder
  have hsymbols : (p.map f).symbols = p.symbols := rfl
  rw [hsymbols]
  by_cases h : p.symbols = order
  · rw [if_pos h, if_pos h]
    exact .ok rfl
  · rw [if_neg h, if_neg h]
    exact reorder_map hf p order

/-- **Mapping cells before conforming** is mapping them after it. -/
theorem conform_map (hf : f Cell.missing = Cell.missing) (a : Alignment) (reference p : Panel) :
    Alike (Mapped f) (a.conform reference p) (a.conform reference (p.map f)) := by
  refine conform_follows (conformDates_follows rfl rfl rfl fun _ _ _ => align_map hf p _ _) ?_
  rintro x _ rfl
  exact inOrder_map hf reference.symbols x

end Alignment

end PanelCalc
