import PanelCalc.Panel.Basic
import PanelCalc.Series

/-! # Cells of panels that are computed from others

The cell of a row and a column of every panel that an operation gives, and how
far back a cell of a series computed from another one looks: never ahead. -/
namespace PanelCalc

namespace Panel

variable {p : Panel} {row col : Nat}

/-- Below the last row there is nothing. -/
theorem cell_of_rows_le (h : p.rows ≤ row) : p.cell row col = Cell.missing := by
  have : p.values.size ≤ row * p.cols + col := by
    rw [p.size_eq]
    exact Nat.le_trans (Nat.mul_le_mul_right _ h) (Nat.le_add_right ..)
  simp [cell, Array.getD, Nat.not_lt.mpr this]

theorem lt_cols {symbol : String} (h : p.symbols[col]? = some symbol) : col < p.cols :=
  (List.getElem?_eq_some_iff.mp h).1

theorem length_rowCells (p : Panel) (row : Nat) : (p.rowCells row).length = p.cols := by
  rw [rowCells, List.length_map, List.length_range]

theorem cell_remap (f : Nat → Nat → Float) (hr : row < p.rows) (hc : col < p.cols) :
    (p.remap f).cell row col = f row col :=
  cell_tabulate f hr hc

theorem cell_mapColumns (f : Nat → List Float → List Float) (hr : row < p.rows)
    (hc : col < p.cols) :
    (p.mapColumns f).cell row col = (f col (p.colCells col))[row]?.getD Cell.missing := by
  rw [mapColumns, cell_remap _ hr hc]
  simp [Array.getD_eq_getD_getElem?, hc]

theorem cell_mapRows (f : Nat → List Float → List Float) (hr : row < p.rows) (hc : col < p.cols) :
    (p.mapRows f).cell row col = (f row (p.rowCells row))[col]?.getD Cell.missing := by
  rw [mapRows, cell_remap _ hr hc]
  simp [Array.getD_eq_getD_getElem?, hr]

/-- What a row is replaced by. -/
theorem rowCells_mapRows {f : Nat → List Float → List Float} (hr : row < p.rows)
    (hl : (f row (p.rowCells row)).length = p.cols) :
    (p.mapRows f).rowCells row = f row (p.rowCells row) := by
  refine List.ext_getElem (by rw [length_rowCells, hl]; rfl) fun col hc _ => ?_
  have hcol : col < p.cols := by rwa [length_rowCells] at hc
  have hcell : ((p.mapRows f).rowCells row)[col] = (p.mapRows f).cell row col := by
    simp [rowCells]
  rw [hcell, cell_mapRows f hr hcol, List.getElem?_eq_getElem (hl ▸ hcol)]
  rfl

theorem chain_of_checkFrom {row : Nat} {dates : List Date}
    (h : checkDates.checkFrom row dates = .ok ()) : dates.Pairwise (· < ·) := by
  induction dates generalizing row with
  | nil => exact .nil
  | cons first dates ih =>
    cases dates with
    | nil => exact List.pairwise_singleton ..
    | cons second dates =>
      unfold checkDates.checkFrom at h
      split at h
      · rename_i earlier
        have later := ih h
        refine List.pairwise_cons.mpr ⟨fun date hd => ?_, later⟩
        rcases List.mem_cons.mp hd with rfl | hd
        · exact earlier
        · exact Int.lt_trans earlier ((List.pairwise_cons.mp later).1 date hd)
      · cases h

/-- Dates that pass their check increase. -/
theorem pairwise_of_checkDates {dates : List Date} (h : checkDates dates = .ok ()) :
    dates.Pairwise (· < ·) :=
  chain_of_checkFrom h

theorem checkFrom_of_chain {dates : List Date} (h : dates.Pairwise (· < ·)) (row : Nat) :
    checkDates.checkFrom row dates = .ok () := by
  induction dates generalizing row with
  | nil => rfl
  | cons first dates ih =>
    cases dates with
    | nil => rfl
    | cons second dates =>
      obtain ⟨hfirst, hlater⟩ := List.pairwise_cons.mp h
      rw [checkDates.checkFrom, if_pos (hfirst second (.head _))]
      exact ih hlater (row + 1)

/-- Dates pass their check where they increase. -/
theorem checkDates_iff {dates : List Date} : checkDates dates = .ok () ↔ dates.Pairwise (· < ·) :=
  ⟨pairwise_of_checkDates, fun h => checkFrom_of_chain h 1⟩

theorem nodup_of_increasing {dates : List Date} (h : dates.Pairwise (· < ·)) : dates.Nodup :=
  h.imp fun {d e} (hlt : d.ordinal < e.ordinal) he => by
    rw [he] at hlt
    exact Int.lt_irrefl _ hlt

/-! ## Reading by name -/

theorem exists_symbolIndex? {symbol : String} (h : symbol ∈ p.symbols) :
    ∃ col, p.symbolIndex? symbol = some col :=
  Option.ne_none_iff_exists'.mp fun hn => List.idxOf?_eq_none_iff.mp hn h

/-- The cell that is read under a date and a security. -/
theorem get?_eq_cell (hn : p.dates.Nodup) {date : Date} {symbol : String}
    (hd : p.dates[row]? = some date) (hs : p.symbolIndex? symbol = some col) :
    p.get? date symbol = some (p.cell row col) := by
  obtain ⟨hr, hdate⟩ := List.getElem?_eq_some_iff.mp hd
  have hrow : p.dateIndex? date = some row := by
    refine List.idxOf?_eq_some_iff.mpr ⟨hr, by simp [hdate], fun j hj => ?_⟩
    have hjr : j < p.dates.length := Nat.lt_trans hj hr
    have hne : p.dates[j] ≠ date := fun he => by
      have hsame : p.dates[j]? = p.dates[row]? := by rw [hd, List.getElem?_eq_getElem hjr, he]
      exact Nat.ne_of_lt hj ((List.getElem?_inj hjr hn).mp hsame)
    simpa using hne
  have hc : col < p.cols := (List.idxOf?_eq_some_iff.mp hs).1
  simp only [get?, hrow, hs, Option.bind_eq_bind, Option.bind_some, valueAt?]
  exact if_pos ⟨hr, hc⟩

theorem get?_remap (f : Nat → Nat → Float) (hn : p.dates.Nodup) {date : Date} {symbol : String}
    (hd : p.dates[row]? = some date) (hs : p.symbolIndex? symbol = some col) :
    (p.remap f).get? date symbol = some (f row col) := by
  have hr : row < p.rows := (List.getElem?_eq_some_iff.mp hd).1
  have hc : col < p.cols := (List.idxOf?_eq_some_iff.mp hs).1
  rw [← cell_remap f hr hc]
  exact get?_eq_cell (p := p.remap f) hn hd hs

/-- Dates and securities of a panel lead to one of its cells. -/
theorem exists_get?_eq_cell (hn : p.dates.Nodup) {date : Date} {symbol : String}
    (hd : date ∈ p.dates) (hs : symbol ∈ p.symbols) :
    ∃ row col, p.dates[row]? = some date ∧ p.symbolIndex? symbol = some col ∧
      p.get? date symbol = some (p.cell row col) := by
  obtain ⟨row, hrow⟩ := List.getElem?_of_mem hd
  obtain ⟨col, hcol⟩ := exists_symbolIndex? hs
  exact ⟨row, col, hrow, hcol, get?_eq_cell hn hrow hcol⟩

/-- Under other dates and securities there is nothing to be read. -/
theorem get?_eq_none {date : Date} {symbol : String}
    (h : ¬ (date ∈ p.dates ∧ symbol ∈ p.symbols)) : p.get? date symbol = none := by
  by_cases hd : date ∈ p.dates
  · have hs : p.symbolIndex? symbol = none := List.idxOf?_eq_none_iff.mpr fun hs => h ⟨hd, hs⟩
    simp [get?, hs]
  · have hrow : p.dateIndex? date = none := List.idxOf?_eq_none_iff.mpr hd
    simp [get?, hrow]

/-- The history of a security, cell by cell. -/
theorem columnOf?_getElem? {symbol : String} (hr : row < p.rows)
    (hs : p.symbolIndex? symbol = some col) :
    p.columnOf? symbol >>= (·[row]?) = some (p.cell row col) := by
  have hc : col < p.cols := (List.idxOf?_eq_some_iff.mp hs).1
  simp only [columnOf?, hs, Option.bind_eq_bind, Option.bind_some, column?, if_pos hc, colCells]
  rw [List.getElem?_map, List.getElem?_range hr, Option.map_some]

end Panel

namespace Series

/-- Windows look back only. -/
theorem windows_getElem?_congr {α : Type} (n : Nat) {xs ys : List α} {i : Nat}
    (hl : xs.length = ys.length) (h : xs.take (i + 1) = ys.take (i + 1)) :
    (windows n xs)[i]? = (windows n ys)[i]? := by
  have slice (k : Nat) (hk : k + n ≤ i + 1) : (xs.drop k).take n = (ys.drop k).take n := by
    have := congrArg (fun zs => (zs.take (k + n)).drop k) h
    simp only [List.take_take, Nat.min_eq_left hk] at this
    rwa [List.take_drop, List.take_drop]
  simp only [windows, hl, List.getElem?_append, List.length_replicate]
  split
  · rfl
  · rename_i hi
    rw [List.getElem?_map, List.getElem?_map]
    by_cases hk : i - min (n - 1) ys.length < ys.length + 1 - n
    · rw [List.getElem?_range hk, Option.map_some, Option.map_some, slice _ (by omega)]
    · rw [List.getElem?_eq_none (by simpa using hk)]
      rfl

/-- A function of series that looks back only. -/
def Causal (f : List Float → List Float) : Prop :=
  ∀ (xs ys : List Float) (i : Nat), xs.length = ys.length → xs.take (i + 1) = ys.take (i + 1) →
    (f xs)[i]? = (f ys)[i]?

theorem causal_rolling (n : Nat) (reduce : List Float → Float) : Causal (rolling n reduce) := by
  intro xs ys i hl h
  rw [rolling, rolling, List.getElem?_map, List.getElem?_map, windows_getElem?_congr n hl h]

theorem rollingPair_getElem?_congr (n : Nat) (reduce : List Float → List Float → Float)
    {xs xs' ys ys' : List Float} {i : Nat} (hx : xs.length = xs'.length)
    (h : xs.take (i + 1) = xs'.take (i + 1)) (hy : ys.length = ys'.length)
    (h' : ys.take (i + 1) = ys'.take (i + 1)) :
    (rollingPair n reduce xs ys)[i]? = (rollingPair n reduce xs' ys')[i]? := by
  rw [rollingPair, rollingPair, List.getElem?_zipWith, List.getElem?_zipWith,
    windows_getElem?_congr n hx h, windows_getElem?_congr n hy h']

theorem getElem?_of_take {xs ys : List Float} {i j : Nat} (h : xs.take (i + 1) = ys.take (i + 1))
    (hj : j ≤ i) : xs[j]? = ys[j]? := by
  have := congrArg (·[j]?) h
  simpa only [List.getElem?_take, if_pos (Nat.lt_succ_of_le hj)] using this

theorem causal_shifted (n : Nat) (f : Float → Float → Float) : Causal (shifted n f) := by
  intro xs ys i hl h
  simp only [shifted, List.getElem?_append, List.length_replicate, hl]
  split
  · rfl
  · rename_i hi
    rw [List.getElem?_zipWith, List.getElem?_zipWith, List.getElem?_drop, List.getElem?_drop]
    by_cases hn : n ≤ ys.length
    · rw [Nat.min_eq_left hn] at hi ⊢
      rw [getElem?_of_take h (j := i - n) (by omega),
        getElem?_of_take h (j := n + (i - n)) (by omega)]
    · rw [List.getElem?_eq_none (l := xs) (i := n + _) (by omega),
        List.getElem?_eq_none (l := ys) (i := n + _) (by omega)]

theorem causal_countUpTo (last : Float) : Causal (countUpTo last) := by
  intro xs ys i hl _
  rw [countUpTo, countUpTo, hl]

end Series

end PanelCalc
