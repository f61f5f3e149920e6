import PanelCalc.Proofs.Panel.Aligning
import PanelCalc.Proofs.Panel.Cells

/-! # The first rows of panels

What a function of a history gives for the first cells is what it gives for a
history of these cells alone, and the same holds of the first rows of panels. -/
namespace PanelCalc

namespace Series

variable {α : Type} {n k : Nat}

/-- The window of every cell: the latest cells up to it, oldest first. -/
theorem windows_getElem? (hn : 0 < n) (xs : List α) {i : Nat} (hi : i < xs.length) :
    (windows n xs)[i]? =
      some (if i + 1 < n then none else some ((xs.drop (i + 1 - n)).take n)) := by
  simp only [windows, List.getElem?_append, List.length_replicate]
  by_cases hw : i + 1 < n
  · rw [if_pos (by omega), if_pos hw, List.getElem?_replicate_of_lt (by omega)]
  · rw [if_neg (by omega), if_neg hw, List.getElem?_map,
      List.getElem?_range (by omega : i - min (n - 1) xs.length < xs.length + 1 - n)]
    simp only [Option.map_some, Option.some.injEq]
    rw [show i - min (n - 1) xs.length = i + 1 - n by omega]

theorem length_windows (hn : 0 < n) (xs : List α) : (windows n xs).length = xs.length := by
  simp only [windows, List.length_append, List.length_replicate, List.length_map, List.length_range]
  omega

/-- The windows of the first cells are the first windows. -/
theorem windows_take (hn : 0 < n) (xs : List α) :
    windows n (xs.take k) = (windows n xs).take k := by
  refine List.ext_getElem? fun i => ?_
  by_cases hi : i < (xs.take k).length
  · have hlt : i < k ∧ i < xs.length := by
      rw [List.length_take] at hi
      omega
    rw [windows_getElem? hn _ hi, List.getElem?_take, if_pos hlt.1, windows_getElem? hn _ hlt.2]
    split
    · rfl
    · rw [List.drop_take, List.take_take, Nat.min_eq_left (by omega)]
  · rw [List.length_take] at hi
    rw [List.getElem?_eq_none, List.getElem?_eq_none]
    · rw [List.length_take, length_windows hn]
      omega
    · rw [length_windows hn, List.length_take]
      omega

/-- A function of series that does to the first cells what it does to them alone. -/
def Prefixing (f : List Float → List Float) : Prop :=
  ∀ (xs : List Float) (k : Nat), f (xs.take k) = (f xs).take k

theorem prefixing_rolling (hn : 0 < n) (reduce : List Float → Float) :
    Prefixing (rolling n reduce) := by
  intro xs k
  rw [rolling, rolling, windows_take hn, List.map_take]

theorem rollingPair_take (hn : 0 < n) (reduce : List Float → List Float → Float)
    (xs ys : List Float) :
    rollingPair n reduce (xs.take k) (ys.take k) = (rollingPair n reduce xs ys).take k := by
  rw [rollingPair, rollingPair, windows_take hn, windows_take hn, List.take_zipWith]

theorem prefixing_shifted (n : Nat) (f : Float → Float → Float) : Prefixing (shifted n f) := by
  intro xs k
  refine List.ext_getElem? fun i => ?_
  have hl : (xs.take k).length = min k xs.length := List.length_take
  simp only [shifted, List.getElem?_take, List.getElem?_append, List.length_replicate, hl]
  by_cases hi : i < k
  · rw [if_pos hi]
    by_cases hw : i < min n xs.length
    · rw [if_pos (by omega), if_pos hw, List.getElem?_replicate_of_lt (by omega),
        List.getElem?_replicate_of_lt hw]
    · have hm : min n (min k xs.length) = min n xs.length := by omega
      rw [hm, if_neg hw, if_neg hw, List.getElem?_zipWith, List.getElem?_zipWith,
        List.getElem?_drop, List.getElem?_drop, List.getElem?_take_of_lt (i := i - _) (by omega)]
      by_cases hn : n ≤ xs.length
      · rw [List.getElem?_take_of_lt (by omega)]
      · rw [List.getElem?_eq_none (l := xs.take k) (by omega),
          List.getElem?_eq_none (l := xs) (i := n + _) (by omega)]
  · rw [if_neg hi, if_neg (by omega), List.getElem?_eq_none]
    rw [List.length_zipWith, List.length_drop, hl]
    omega

end Series

namespace Panel

/-- The panel of the first rows. -/
def cut (k : Nat) (p : Panel) : Panel := tabulate (p.dates.take k) p.symbols p.cell

variable {p q : Panel} {k row col : Nat}

theorem rows_cut : (p.cut k).rows = min k p.rows := List.length_take

theorem lt_of_lt_rows_cut (hr : row < (p.cut k).rows) : row < k ∧ row < p.rows := by
  rw [rows_cut] at hr
  omega

theorem cell_cut (hr : row < (p.cut k).rows) (hc : col < p.cols) :
    (p.cut k).cell row col = p.cell row col :=
  cell_tabulate p.cell hr hc

/-- A panel on the first dates that has the same cells there holds the first rows. -/
theorem eq_cut (hd : q.dates = p.dates.take k) (hs : q.symbols = p.symbols)
    (h : ∀ row col, row < (p.cut k).rows → col < p.cols → q.cell row col = p.cell row col) :
    q = p.cut k := by
  refine ext_cell hd hs fun row hr col hc => ?_
  have hr' : row < (p.cut k).rows := by
    rw [Panel.rows, hd] at hr
    exact hr
  have hc' : col < p.cols := by rwa [cols, hs] at hc
  rw [cell_cut hr' hc', h row col hr' hc']

theorem cut_remap {f g : Nat → Nat → Float}
    (h : ∀ row col, row < (p.cut k).rows → col < p.cols → g row col = f row col) :
    (p.cut k).remap g = (p.remap f).cut k := by
  refine eq_cut rfl rfl fun row col hr hc => ?_
  have hr' : row < (p.cut k).rows := hr
  rw [cell_remap g hr' hc, cell_remap f (lt_of_lt_rows_cut hr').2 hc, h row col hr' hc]

theorem colCells_cut (hc : col < p.cols) : (p.cut k).colCells col = (p.colCells col).take k := by
  rw [colCells, colCells, ← List.map_take, List.take_range, rows_cut, List.map_inj_left]
  intro row hr
  rw [List.mem_range] at hr
  exact cell_cut (by rwa [rows_cut]) hc

theorem rowCells_cut (hr : row < (p.cut k).rows) : (p.cut k).rowCells row = p.rowCells row := by
  rw [rowCells, rowCells, show (p.cut k).cols = p.cols from rfl, List.map_inj_left]
  intro col hc
  rw [List.mem_range] at hc
  exact cell_cut hr hc

theorem cut_mapColumns {f g : Nat → List Float → List Float}
    (h : ∀ col < p.cols, g col ((p.colCells col).take k) = (f col (p.colCells col)).take k) :
    (p.cut k).mapColumns g = (p.mapColumns f).cut k := by
  refine eq_cut rfl rfl fun row col hr hc => ?_
  have hr' : row < (p.cut k).rows := hr
  have hlt := lt_of_lt_rows_cut hr'
  have hc' : col < p.cols := hc
  rw [cell_mapColumns g hr' hc', cell_mapColumns f hlt.2 hc', colCells_cut hc', h col hc',
    List.getElem?_take_of_lt hlt.1]

theorem cut_mapRows {f g : Nat → List Float → List Float}
    (h : ∀ row < (p.cut k).rows, g row (p.rowCells row) = f row (p.rowCells row)) :
    (p.cut k).mapRows g = (p.mapRows f).cut k := by
  refine eq_cut rfl rfl fun row col hr hc => ?_
  have hr' : row < (p.cut k).rows := hr
  rw [cell_mapRows g hr' hc, cell_mapRows f (lt_of_lt_rows_cut hr').2 hc, rowCells_cut hr',
    h row hr']

/-- Securities are reordered by their names alone. -/
theorem reorder_cut (order : List String) :
    (p.cut k).reorder order = (p.reorder order).map (cut k) := by
  have h : Alike (fun _ _ => True) (p.reorder order) ((p.cut k).reorder order) := reorder_alike rfl
  generalize hp : p.reorder order = a at h ⊢
  generalize hq : (p.cut k).reorder order = b at h ⊢
  cases h with
  | error => rfl
  | failed h => exact absurd trivial h
  | ok _ =>
    obtain ⟨had, has, hacell⟩ := reorder_ok hp
    obtain ⟨hbd, hbs, hbcell⟩ := reorder_ok hq
    refine congrArg Except.ok (eq_cut (by rw [hbd, had]; rfl) (hbs.trans has.symm) ?_)
    intro row col hr hc
    have hr' : row < (p.cut k).rows := by
      rw [rows_cut, Panel.rows, had] at hr
      rwa [rows_cut]
    have hlt : row < p.rows := by
      rw [rows_cut] at hr'
      omega
    rw [cols, has] at hc
    obtain ⟨col', hcol, hcell⟩ := hacell row col _ hlt (List.getElem?_eq_getElem hc)
    obtain ⟨col'', hcol', hcell'⟩ := hbcell row col _ hr' (List.getElem?_eq_getElem hc)
    cases hcol.symm.trans hcol'
    rw [hcell, hcell', cell_cut hr' (lt_cols_of_symbolIndex? hcol)]

end Panel

end PanelCalc
