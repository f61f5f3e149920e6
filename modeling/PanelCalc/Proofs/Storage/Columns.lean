import Mathlib.Data.Option.NAry
import PanelCalc.Proofs.Panel.Cuts
import PanelCalc.Proofs.Storage.Buffers

/-! # Histories over buffers

A column is read at every row, and its image is written at every row. The image
has a value for each row, so all places lie within the buffer. -/
namespace PanelCalc

namespace Series

variable {n : Nat} {xs : List Float}

theorem length_rolling (hn : 0 < n) (reduce : List Float → Float) :
    (rolling n reduce xs).length = xs.length := by
  rw [rolling, List.length_map, length_windows hn]

theorem length_countUpTo (last : Float) : (countUpTo last xs).length = xs.length := by
  simp [countUpTo]

/-- The cell of a row and the one `n` rows before it. -/
theorem shifted_getElem? (f : Float → Float → Float) {row : Nat} (hr : row < xs.length) :
    (shifted n f xs)[row]? = some (if n ≤ row then f (xs.getD row Cell.missing)
      (xs.getD (row - n) Cell.missing) else Cell.missing) := by
  by_cases hn : n ≤ row
  · have hle : n ≤ xs.length := by omega
    rw [shifted, List.getElem?_append_right (by simpa [hle] using hn), List.getElem?_zipWith,
      List.getElem?_drop, if_pos hn, List.length_replicate, Nat.min_eq_left hle,
      Nat.add_sub_cancel' hn]
    simp [List.getD_eq_getElem?_getD, hr, show row - n < xs.length by omega]
  · rw [shifted, List.getElem?_append_left (by simp; omega), if_neg hn,
      List.getElem?_replicate_of_lt (by omega)]

theorem length_shifted (f : Float → Float → Float) : (shifted n f xs).length = xs.length := by
  simp only [shifted, List.length_append, List.length_replicate, List.length_zipWith,
    List.length_drop]
  omega

end Series

namespace Storage

variable {ε : Type} {p q : Panel} {row col : Nat}

/-! ## Reading -/

/-- The history in a column. -/
def column (p : Panel) (col : Nat) : Checked ε (List Float) :=
  (List.range p.rows).mapM fun row => read p.values (row * p.cols + col)

theorem read_cell (hr : row < p.rows) (hc : col < p.cols) :
    read p.values (row * p.cols + col) = (.ok (p.cell row col) : Checked ε Float) := by
  have hi : row * p.cols + col < p.values.size := by
    rw [p.size_eq]
    exact Panel.position_lt hr hc
  refine read_eq ?_
  simp [Panel.cell, hi]

theorem column_eq (hc : col < p.cols) : column p col = (.ok (p.colCells col) : Checked ε _) :=
  mapM_ok fun _ hr => read_cell (List.mem_range.mp hr) hc

/-! ## Writing -/

/-- The writes of the cells of a column that are known. -/
def columnWrites (cols col : Nat) (cells : List (Option Float)) : List (Nat × Float) :=
  cells.zipIdx.filterMap fun (x, row) => x.map (row * cols + col, ·)

theorem mem_columnWrites {cols : Nat} {cells : List (Option Float)} {w : Nat × Float} :
    w ∈ columnWrites cols col cells ↔
      ∃ row x, cells[row]? = some (some x) ∧ w = (row * cols + col, x) := by
  simp only [columnWrites, List.mem_filterMap, Prod.exists, List.mem_zipIdx_iff_getElem?,
    Option.map_eq_some_iff]
  constructor
  · intro h
    obtain ⟨_, row, hrow, x, rfl, rfl⟩ := h
    exact ⟨row, x, hrow, rfl⟩
  · intro h
    obtain ⟨row, x, hrow, rfl⟩ := h
    exact ⟨_, row, hrow, x, rfl, rfl⟩

/-- Known cells fill a panel that is missing cells elsewhere only. -/
def Fills (cells : Nat → List (Option Float)) (q : Panel) : Prop :=
  ∀ col < q.cols, (cells col).map (·.getD Cell.missing) = q.colCells col

namespace Fills

variable {cells : Nat → List (Option Float)} (h : Fills cells q)

include h

theorem getElem? (hc : col < q.cols) (hr : row < q.rows) :
    ∃ x, (cells col)[row]? = some x ∧ q.cell row col = x.getD Cell.missing := by
  have hcell := congrArg (·[row]?) (h col hc)
  simp only [Panel.colCells, List.getElem?_map, List.getElem?_range hr, Option.map_some] at hcell
  obtain ⟨x, hx, hcell⟩ := Option.map_eq_some_iff.mp hcell
  exact ⟨x, hx, hcell.symm⟩

theorem length_eq (hc : col < q.cols) : (cells col).length = q.rows := by
  have hlength := congrArg List.length (h col hc)
  simpa [Panel.colCells] using hlength

theorem inside (hc : col < q.cols) : ∀ w ∈ columnWrites q.cols col (cells col),
    ∃ row < q.rows, ∃ col < q.cols, w = (row * q.cols + col, q.cell row col) := by
  intro w hw
  obtain ⟨row, x, hx, rfl⟩ := mem_columnWrites.mp hw
  have hr : row < q.rows := h.length_eq hc ▸ (List.getElem?_eq_some_iff.mp hx).1
  obtain ⟨_, hx', hcell⟩ := h.getElem? hc hr
  rw [hx] at hx'
  cases hx'
  exact ⟨row, hr, col, hc, by rw [hcell]; rfl⟩

theorem outside (hr : row < q.rows) (hc : col < q.cols)
    (hout : row * q.cols + col ∉ (columnWrites q.cols col (cells col)).map (·.1)) :
    q.cell row col = Cell.missing := by
  obtain ⟨x, hx, hcell⟩ := h.getElem? hc hr
  cases x with
  | none => exact hcell
  | some x => exact absurd (List.mem_map.mpr ⟨_, mem_columnWrites.mpr ⟨row, x, hx, rfl⟩, rfl⟩) hout

/-- A loop that writes column after column makes the panel. -/
theorem foldlM_panel {body : Array Float → Nat → Checked ε (Array Float)}
    (hbody : ∀ col < q.cols, ∀ values,
      body values col = writeAll values (columnWrites q.cols col (cells col))) :
    ((List.range q.cols).foldlM body (Array.replicate (q.rows * q.cols) Cell.missing) >>=
      panel q.dates q.symbols : Checked ε Panel) = .ok q := by
  refine Storage.foldlM_panel (fun col => columnWrites q.cols col (cells col)) ?_ ?_ ?_
  · intro col hc values
    exact hbody col (List.mem_range.mp hc) values
  · intro col hc
    exact h.inside (List.mem_range.mp hc)
  · intro row hr col hc hout
    exact h.outside hr hc (hout col (List.mem_range.mpr hc))

end Fills

/-! ## Functions of histories -/

/-- The panel with the history in every column replaced by its image. -/
def mapColumns (p : Panel) (f : List Float → Checked ε (List Float)) : Checked ε Panel := do
  let values ← (List.range p.cols).foldlM (fun values col => do
    let image ← f (← column p col)
    expect p.rows image.length
    writeAll values (columnWrites p.cols col (image.map some)))
    (Array.replicate (p.rows * p.cols) Cell.missing)
  panel p.dates p.symbols values

theorem colCells_mapColumns (f : Nat → List Float → List Float) (hc : col < p.cols)
    (hl : (f col (p.colCells col)).length = p.rows) :
    (p.mapColumns f).colCells col = f col (p.colCells col) := by
  have hlength : ((p.mapColumns f).colCells col).length = p.rows := by
    simp only [Panel.colCells, List.length_map, List.length_range]
    rfl
  refine List.ext_getElem (hlength.trans hl.symm) fun row hr hr' => ?_
  rw [hl] at hr'
  simp only [Panel.colCells, List.getElem_map, List.getElem_range]
  rw [Panel.cell_mapColumns f hr' hc, List.getElem?_eq_getElem (by omega), Option.getD_some]
  rfl

theorem mapColumns_eq {f : List Float → Checked ε (List Float)} {g : List Float → List Float}
    (hf : ∀ xs, f xs = .ok (g xs)) (hl : ∀ xs, (g xs).length = xs.length) :
    mapColumns p f = .ok (p.mapColumns fun _ => g) := by
  have hlength (col : Nat) : (g (p.colCells col)).length = p.rows := by
    simp [hl, Panel.colCells]
  have hfills : Fills (fun col => (g (p.colCells col)).map some) (p.mapColumns fun _ => g) := by
    intro col hc
    rw [colCells_mapColumns (p := p) _ hc (hlength col)]
    simp [Function.comp_def]
  refine hfills.foldlM_panel fun col hc values => ?_
  have hc : col < p.cols := hc
  rw [column_eq hc]
  simp only [bind, Except.bind, hf, hlength, expect_self]
  rfl

/-- The cells of two histories, `n` rows apart. -/
def shifted (n : Nat) (f : Float → Float → Float) (xs : List Float) :
    Checked ε (List Float) :=
  (List.range xs.length).mapM fun row =>
    if n ≤ row then do return f (← read xs.toArray row) (← read xs.toArray (row - n))
    else return Cell.missing

theorem shifted_eq (n : Nat) (f : Float → Float → Float) (xs : List Float) :
    shifted n f xs = (.ok (Series.shifted n f xs) : Checked ε _) := by
  have hall : (List.range xs.length).map (fun row => if n ≤ row then
      f (xs.getD row Cell.missing) (xs.getD (row - n) Cell.missing) else Cell.missing) =
      Series.shifted n f xs := by
    refine List.ext_getElem? fun row => ?_
    by_cases hr : row < xs.length
    · rw [Series.shifted_getElem? f hr, List.getElem?_map, List.getElem?_range hr, Option.map_some]
    · rw [List.getElem?_eq_none (by simpa using hr),
        List.getElem?_eq_none (by simpa [Series.length_shifted] using hr)]
  rw [shifted, ← hall]
  refine mapM_ok fun row hr => ?_
  have hr := List.mem_range.mp hr
  have hread {row : Nat} (hr : row < xs.length) :
      read xs.toArray row = (.ok (xs.getD row Cell.missing) : Checked ε Float) :=
    read_eq (by simp [hr])
  split
  · rw [hread hr, hread (by omega)]
    rfl
  · rfl

/-- The cells of a column, if there is one. -/
def column? (p : Panel) (col : Nat) : Checked ε (Option (List Float)) :=
  if col < p.cols then some <$> column p col else return none

/-- The panel whose columns are made of those of two panels, window by window. -/
def rollingPair (n : Nat) (reduce : List Float → List Float → Float) (x y : Panel) :
    Checked ε Panel := do
  let values ← (List.range x.cols).foldlM (fun values col => do
    match ← column? x col, ← column? y col with
    | some xs, some ys =>
      writeAll values (columnWrites x.cols col
        (List.zipWith (Option.map₂ reduce) (Series.windows n xs) (Series.windows n ys)))
    | _, _ => return values)
    (Array.replicate (x.rows * x.cols) Cell.missing)
  panel x.dates x.symbols values

theorem rollingPair_eq {n : Nat} (hn : 0 < n) (reduce : List Float → List Float → Float)
    (h : q.IndexedAs p) :
    rollingPair n reduce p q = (.ok (p.mapColumns fun col xs =>
      Series.rollingPair n reduce xs (q.colCells col)) : Checked ε Panel) := by
  have hrows : q.rows = p.rows := congrArg List.length h.dates
  have hcols : q.cols = p.cols := congrArg List.length h.symbols
  have hwindows (xs ys : List Float) :
      (List.zipWith (Option.map₂ reduce) (Series.windows n xs) (Series.windows n ys)).map
        (·.getD Cell.missing) = Series.rollingPair n reduce xs ys := by
    rw [Series.rollingPair, List.map_zipWith]
    congr 1
    funext wx wy
    cases wx <;> cases wy <;> rfl
  have hlength (col : Nat) :
      (Series.rollingPair n reduce (p.colCells col) (q.colCells col)).length = p.rows := by
    simp [Series.rollingPair, Series.length_windows hn, Panel.colCells, hrows]
  have hfills : Fills (fun col => List.zipWith (Option.map₂ reduce)
      (Series.windows n (p.colCells col)) (Series.windows n (q.colCells col)))
      (p.mapColumns fun col xs => Series.rollingPair n reduce xs (q.colCells col)) := by
    intro col hc
    rw [colCells_mapColumns (p := p) _ hc (hlength col)]
    exact hwindows _ _
  refine hfills.foldlM_panel fun col hc values => ?_
  have hc : col < p.cols := hc
  simp only [column?, if_pos hc, hcols, column_eq hc, column_eq (hcols ▸ hc)]
  rfl

end Storage

end PanelCalc
