import PanelCalc.Calendar.Date
import PanelCalc.Cell
import PanelCalc.Panel.ShapeError

/-!
# Panels

A panel is a table of cells with one row per date and one column per security. Every operation on
panels is written by cells: `tabulate` builds a panel from a function of row and column, and `cell`
reads one, so that `cell_tabulate` and `ext_cell` say all there is to know about the storage.
-/

namespace PanelCalc

/-- A table of cells indexed by dates and securities. -/
structure Panel where
  dates : List Date
  symbols : List String
  /-- The cells, row after row. -/
  values : Array Float
  size_eq : values.size = dates.length * symbols.length

namespace Panel

def rows (p : Panel) : Nat := p.dates.length

def cols (p : Panel) : Nat := p.symbols.length

def cell (p : Panel) (row col : Nat) : Float := p.values.getD (row * p.cols + col) Cell.missing

/-- The panel whose cells a function of row and column gives. -/
def tabulate (dates : List Date) (symbols : List String) (f : Nat → Nat → Float) : Panel where
  dates := dates
  symbols := symbols
  values := Array.ofFn fun i : Fin (dates.length * symbols.length) =>
    f (i.val / symbols.length) (i.val % symbols.length)
  size_eq := Array.size_ofFn

def remap (p : Panel) (f : Nat → Nat → Float) : Panel := tabulate p.dates p.symbols f

@[simp] theorem dates_tabulate (dates : List Date) (symbols : List String)
    (f : Nat → Nat → Float) : (tabulate dates symbols f).dates = dates := rfl

@[simp] theorem symbols_tabulate (dates : List Date) (symbols : List String)
    (f : Nat → Nat → Float) : (tabulate dates symbols f).symbols = symbols := rfl

/-- The position of a cell lies within the storage. -/
theorem position_lt {rows cols row col : Nat} (hr : row < rows) (hc : col < cols) :
    row * cols + col < rows * cols := by
  calc row * cols + col < row * cols + cols := by omega
    _ = (row + 1) * cols := by rw [Nat.add_mul, Nat.one_mul]
    _ ≤ rows * cols := Nat.mul_le_mul_right cols hr

/-- A tabulated panel has the cells it was given. -/
theorem cell_tabulate {dates : List Date} {symbols : List String} {row col : Nat}
    (f : Nat → Nat → Float) (hr : row < dates.length) (hc : col < symbols.length) :
    (tabulate dates symbols f).cell row col = f row col := by
  have within := position_lt hr hc
  have row_eq : (row * symbols.length + col) / symbols.length = row := by
    rw [Nat.mul_comm, Nat.mul_add_div (by omega), Nat.div_eq_of_lt hc, Nat.add_zero]
  have col_eq : (row * symbols.length + col) % symbols.length = col := by
    rw [Nat.mul_comm, Nat.mul_add_mod, Nat.mod_eq_of_lt hc]
  simp [cell, cols, tabulate, Array.getD, within, row_eq, col_eq]

/-- Panels with equal indexes and equal cells are equal. -/
theorem ext_cell {p q : Panel} (dates : p.dates = q.dates) (symbols : p.symbols = q.symbols)
    (cells : ∀ row < p.rows, ∀ col < p.cols, p.cell row col = q.cell row col) : p = q := by
  obtain ⟨pd, ps, pv, hp⟩ := p
  obtain ⟨qd, qs, qv, hq⟩ := q
  subst dates symbols
  have same : pv = qv := by
    apply Array.ext (hp.trans hq.symm)
    intro i hi hj
    have positive : 0 < ps.length := by
      rcases Nat.eq_zero_or_pos ps.length with none | some
      · rw [hp, none, Nat.mul_zero] at hi
        omega
      · exact some
    have row_lt : i / ps.length < pd.length := by
      rw [Nat.div_lt_iff_lt_mul positive, ← hp]
      exact hi
    have := cells (i / ps.length) row_lt (i % ps.length) (Nat.mod_lt i positive)
    have position : i / ps.length * ps.length + i % ps.length = i := by
      rw [Nat.mul_comm]
      exact Nat.div_add_mod i ps.length
    simpa [cell, cols, Array.getD, position, hi, hj] using this
  subst same
  rfl

/-- Whether dates strictly increase; otherwise the first row whose date does not. -/
def checkDates : List Date → Except ShapeError Unit := checkFrom 1
where
  /-- The check of dates whose second one belongs to row `row`. -/
  checkFrom (row : Nat) : List Date → Except ShapeError Unit
    | earlier :: later :: dates =>
      if earlier < later then checkFrom (row + 1) (later :: dates) else .error (.unsortedDates row)
    | _ => .ok ()

/-- Whether no security is listed twice; otherwise the first one that repeats another. -/
def checkSymbols : List String → Except ShapeError Unit := checkAfter []
where
  /-- The check of the securities that follow those in `seen`. -/
  checkAfter (seen : List String) : List String → Except ShapeError Unit
    | [] => .ok ()
    | symbol :: symbols =>
      if seen.contains symbol then .error (.duplicateSecurity symbol)
      else checkAfter (symbol :: seen) symbols

/-- What makes a table a panel: increasing dates and different securities. -/
structure Valid (p : Panel) : Prop where
  dates : p.dates.Pairwise (· < ·)
  symbols : p.symbols.Nodup

/-- The panel of cells given row after row. -/
def ofValues (dates : List Date) (symbols : List String) (values : List Float) :
    Except ShapeError Panel := do
  checkDates dates
  checkSymbols symbols
  if size_eq : values.length = dates.length * symbols.length then
    .ok { dates, symbols, values := values.toArray, size_eq := by simpa using size_eq }
  else .error (.cellCount (dates.length * symbols.length) values.length)

def ofRows (dates : List Date) (symbols : List String) (cells : List (List Float)) :
    Except ShapeError Panel :=
  match cells.find? (·.length != symbols.length) with
  | some row => .error (.cellCount symbols.length row.length)
  | none =>
    if cells.length = dates.length then ofValues dates symbols cells.flatten
    else .error (.rowMismatch dates.length cells.length)

def full (dates : List Date) (symbols : List String) (value : Float) : Except ShapeError Panel :=
  ofValues dates symbols (List.replicate (dates.length * symbols.length) value)

/-! ## Reading cells -/

def symbolIndex? (p : Panel) (symbol : String) : Option Nat := p.symbols.idxOf? symbol

def dateIndex? (p : Panel) (date : Date) : Option Nat := p.dates.idxOf? date

def valueAt? (p : Panel) (row col : Nat) : Option Float :=
  if row < p.rows ∧ col < p.cols then some (p.cell row col) else none

def get? (p : Panel) (date : Date) (symbol : String) : Option Float := do
  p.valueAt? (← p.dateIndex? date) (← p.symbolIndex? symbol)

def rowCells (p : Panel) (row : Nat) : List Float := (List.range p.cols).map (p.cell row)

/-- The cells of a column, oldest first. -/
def colCells (p : Panel) (col : Nat) : List Float := (List.range p.rows).map (p.cell · col)

def row? (p : Panel) (row : Nat) : Option (List Float) :=
  if row < p.rows then some (p.rowCells row) else none

def column? (p : Panel) (col : Nat) : Option (List Float) :=
  if col < p.cols then some (p.colCells col) else none

/-- The history of a security, if the panel has it. -/
def columnOf? (p : Panel) (symbol : String) : Option (List Float) :=
  p.symbolIndex? symbol >>= p.column?

def sameIndex (p q : Panel) : Bool := p.dates == q.dates && p.symbols == q.symbols

/-- Whether two panels have the same index and equal cells; a missing cell equals nothing. -/
def same (p q : Panel) : Bool := p.sameIndex q && p.values == q.values

/-! ## Transforming cells -/

def map (p : Panel) (f : Float → Float) : Panel := p.remap fun row col => f (p.cell row col)

/-- The panel with the history in every column replaced by its image, of the same length. -/
def mapColumns (p : Panel) (f : Nat → List Float → List Float) : Panel :=
  let images := ((List.range p.cols).map fun col => (f col (p.colCells col)).toArray).toArray
  p.remap fun row col => (images.getD col #[]).getD row Cell.missing

/-- The panel with the cells of every row replaced by their image, of the same length. -/
def mapRows (p : Panel) (f : Nat → List Float → List Float) : Panel :=
  let images := ((List.range p.rows).map fun row => (f row (p.rowCells row)).toArray).toArray
  p.remap fun row col => (images.getD row #[]).getD col Cell.missing

end Panel

end PanelCalc
