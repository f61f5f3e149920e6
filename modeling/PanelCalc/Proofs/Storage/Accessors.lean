import PanelCalc.Proofs.Panel.Exchange
import PanelCalc.Proofs.Panel.Names
import PanelCalc.Proofs.Storage.Rows

/-! # One matrix in one buffer

A panel is read by places and by names, as a whole row and as a whole column, and
each way computes its own places in the buffer: by a product, a slice, a stride,
pieces of a fixed width, with dates looked up by halves. All of them lead to the
same cells, whatever the shape of the panel, and none leaves the buffer. -/
namespace PanelCalc

namespace Storage

variable {ε α : Type} {p : Panel} {row col : Nat}

/-! ## Looking up by halves -/

section Search

variable {dates : Array Date} {date : Date} {base size : Nat}

/-- The only place among `size` ones from `base` on where the date can be. -/
def narrow (dates : Array Date) (date : Date) (base size : Nat) : Checked ε Nat := do
  if size ≤ 1 then return base
  let middle ← read dates (base + size / 2)
  narrow dates date (if date < middle then base else base + size / 2) (size - size / 2)
termination_by size

/-- The place of a date among increasing ones. -/
def search? (dates : Array Date) (date : Date) : Checked ε (Option Nat) := do
  if dates.size = 0 then return none
  let place ← narrow dates date 0 dates.size
  let found ← read dates place
  return if found = date then some place else none

/-- Dates that increase are earlier where they stand before. -/
theorem lt_getElem_iff (hd : dates.toList.Pairwise (· < ·)) {i j : Nat}
    (hi : dates[i]? = some date) (hj : j < dates.size) : date < dates[j] ↔ i < j := by
  obtain ⟨hbound, rfl⟩ := Array.getElem?_eq_some_iff.mp hi
  have increase := List.pairwise_iff_getElem.mp hd
  constructor
  · intro h
    refine Nat.lt_of_not_le fun hle => ?_
    rcases Nat.eq_or_lt_of_le hle with rfl | hlt
    · exact Int.lt_irrefl _ h
    · exact Int.lt_irrefl _ (Int.lt_trans h (increase j i hj hbound hlt))
  · exact increase i j hbound hj

/-- Each halving keeps the place of the date, if it has one. -/
theorem narrow_eq (hd : dates.toList.Pairwise (· < ·)) (hpos : 0 < size)
    (hsize : base + size ≤ dates.size) :
    ∃ place, narrow dates date base size = (.ok place : Checked ε Nat) ∧ place < dates.size ∧
      ∀ i, base ≤ i → i < base + size → dates[i]? = some date → place = i := by
  induction size using Nat.strong_induction_on generalizing base with
  | _ size ih =>
    rw [narrow]
    by_cases hone : size ≤ 1
    · exact ⟨base, by rw [if_pos hone]; rfl, by omega, fun i hi hlt _ => by omega⟩
    · have hmiddle : base + size / 2 < dates.size := by omega
      have hread : read dates (base + size / 2) = (.ok dates[base + size / 2] : Checked ε Date) :=
        dif_pos hmiddle
      rw [if_neg hone, hread]
      obtain ⟨place, hplace, hlt, hkeeps⟩ := @ih (size - size / 2) (by omega)
        (if date < dates[base + size / 2] then base else base + size / 2) (by omega)
        (by split <;> omega)
      refine ⟨place, hplace, hlt, fun i hi hi' hdate => ?_⟩
      have hside := lt_getElem_iff hd hdate hmiddle
      refine hkeeps i ?_ ?_ hdate
      · split
        · exact hi
        · exact Nat.le_of_not_lt (mt hside.mpr ‹_›)
      · split
        · have := hside.mp ‹_›
          omega
        · omega

/-- **Looking up by halves** finds an increasing date where it stands. -/
theorem search?_eq (hd : dates.toList.Pairwise (· < ·)) :
    search? dates date = (.ok (dates.toList.idxOf? date) : Checked ε _) := by
  unfold search?
  by_cases hempty : dates.size = 0
  · rw [if_pos hempty, Array.eq_empty_of_size_eq_zero hempty]
    rfl
  obtain ⟨place, hplace, hlt, hkeeps⟩ := @narrow_eq ε dates date 0 dates.size hd
    (Nat.pos_of_ne_zero hempty) (Nat.le_of_eq (Nat.zero_add _))
  have hread : read dates place = (.ok dates[place] : Checked ε Date) := dif_pos hlt
  rw [if_neg hempty, hplace]
  simp only [bind, Except.bind, hread, pure, Except.pure]
  cases hi : dates.toList.idxOf? date with
  | none =>
    have hne : dates[place] ≠ date := fun h =>
      List.idxOf?_eq_none_iff.mp hi (h ▸ Array.getElem_mem_toList hlt)
    rw [if_neg hne]
  | some i =>
    obtain ⟨hi', hdate, -⟩ := List.idxOf?_eq_some_iff.mp hi
    have hdate : dates[i]? = some date := by
      rw [Array.getElem?_eq_getElem (by simpa using hi')]
      simpa using hdate
    obtain rfl := hkeeps i (Nat.zero_le i) (by simpa using hi') hdate
    obtain ⟨_, hfound⟩ := Array.getElem?_eq_some_iff.mp hdate
    rw [if_pos hfound]

end Search

/-! ## Strides -/

/-- Every `step`-th element, from the first one on. -/
def stepBy (step : Nat) (positive : 0 < step) : List α → List α
  | [] => []
  | x :: xs => x :: stepBy step positive (xs.drop (step - 1))
termination_by xs => xs.length

theorem stepBy_getElem? {step : Nat} (positive : 0 < step) (xs : List α) (i : Nat) :
    (stepBy step positive xs)[i]? = xs[i * step]? := by
  induction i generalizing xs with
  | zero => cases xs <;> simp [stepBy]
  | succ i ih =>
    cases xs with
    | nil => simp [stepBy]
    | cons x xs =>
      have hplace : (i + 1) * step = step - 1 + i * step + 1 := by
        rw [Nat.add_mul, Nat.one_mul]
        omega
      rw [stepBy, List.getElem?_cons_succ, ih, List.getElem?_drop, hplace,
        List.getElem?_cons_succ]

/-- A stride of the width of a panel goes down one column. -/
theorem stepBy_values {step : Nat} (positive : 0 < step) (hstep : step = p.cols)
    (hc : col < p.cols) : stepBy step positive (p.values.toList.drop col) = p.colCells col := by
  subst hstep
  refine List.ext_getElem? fun row => ?_
  rw [stepBy_getElem?, List.getElem?_drop, Array.getElem?_toList, Nat.add_comm col, Panel.colCells,
    List.getElem?_map]
  by_cases hr : row < p.rows
  · have hi : row * p.cols + col < p.values.size := by
      rw [p.size_eq]
      exact Panel.position_lt hr hc
    rw [List.getElem?_range hr, Array.getElem?_eq_getElem hi]
    simp [Panel.cell, hi]
  · have hi : p.values.size ≤ row * p.cols + col := by
      rw [p.size_eq]
      exact Nat.le_trans (Nat.mul_le_mul_right _ (Nat.le_of_not_lt hr)) (Nat.le_add_right ..)
    rw [Array.getElem?_eq_none hi, List.getElem?_eq_none (by simpa using hr)]
    rfl

/-! ## Accessors -/

/-- The cell of a row and a column, if both exist. -/
def valueAt? (p : Panel) (row col : Nat) : Checked ε (Option Float) :=
  if p.rows ≤ row ∨ p.cols ≤ col then return none else some <$> read p.values (row * p.cols + col)

/-- The cell of a date and a security, if both exist. -/
def get? (p : Panel) (date : Date) (symbol : String) : Checked ε (Option Float) := do
  match ← search? p.dates.toArray date, p.symbolIndex? symbol with
  | some row, some col => valueAt? p row col
  | _, _ => return none

/-- The cells of a row, if it exists. -/
def row? (p : Panel) (row : Nat) : Checked ε (Option (List Float)) :=
  if p.rows ≤ row then return none else some <$> slice p.values (row * p.cols) p.cols

/-- The cells that a stride goes over, if the column exists. -/
def strided? (p : Panel) (col : Nat) : Option (List Float) :=
  if h : col < p.cols then
    some (stepBy p.cols (Nat.zero_lt_of_lt h) (p.values.toList.drop col))
  else none

theorem valueAt?_eq (p : Panel) (row col : Nat) :
    valueAt? p row col = (.ok (p.valueAt? row col) : Checked ε _) := by
  unfold valueAt? Panel.valueAt?
  by_cases h : row < p.rows ∧ col < p.cols
  · rw [if_neg (by omega), if_pos h, read_cell h.1 h.2]
    rfl
  · rw [if_pos (by omega), if_neg h]
    rfl

theorem get?_eq (hp : p.Valid) (date : Date) (symbol : String) :
    get? p date symbol = (.ok (p.get? date symbol) : Checked ε _) := by
  unfold get?
  rw [search?_eq hp.dates]
  simp only [bind, Except.bind, Panel.get?, Panel.dateIndex?]
  cases p.dates.idxOf? date with
  | none => rfl
  | some row =>
    cases p.symbolIndex? symbol with
    | none => rfl
    | some col => exact valueAt?_eq p row col

theorem row?_eq (p : Panel) (row : Nat) : row? p row = (.ok (p.row? row) : Checked ε _) := by
  unfold row? Panel.row?
  by_cases h : row < p.rows
  · rw [if_neg (Nat.not_le.mpr h), if_pos h, slice_row h]
    rfl
  · rw [if_pos (Nat.le_of_not_lt h), if_neg h]
    rfl

theorem strided?_eq (p : Panel) (col : Nat) : strided? p col = p.column? col := by
  unfold strided? Panel.column?
  split
  · rw [stepBy_values _ rfl ‹_›]
  · rfl

/-! ## Maps -/

/-- The panel with every column, as a stride goes over it, replaced by its image. -/
def mapStrided (p : Panel) (f : Nat → List Float → List Float) : Checked ε Panel := do
  let values ← (List.range p.cols).foldlM (fun values col =>
    let image := f col (stepBy (max p.cols 1) (Nat.le_max_right ..) (p.values.toList.drop col))
    writeAll values (columnWrites p.cols col ((image.take p.rows).map some)))
    (Array.replicate (p.rows * p.cols) Cell.missing)
  panel p.dates p.symbols values

/-- A row before anything is written to it. -/
def blankRow (p : Panel) : List Float := List.replicate p.cols Cell.missing

/-- The panel with every row, as a piece of the buffer, written over a blank one. -/
def mapPieces (p : Panel) (g : Nat → List Float → List Float → List Float) : Checked ε Panel :=
  let blank := List.replicate p.values.size Cell.missing
  let written := if 0 < p.cols then
      List.zipWith (fun (source, row) target => g row source target)
        (Panel.pieces p.cols p.values.toList).zipIdx (Panel.pieces p.cols blank) |>.flatten
    else blank
  panel p.dates p.symbols written.toArray

theorem mapStrided_eq {f : Nat → List Float → List Float}
    (hf : ∀ col xs, (f col xs).length = xs.length) :
    mapStrided p f = (.ok (p.mapColumns f) : Checked ε Panel) := by
  have hlength (col : Nat) : (f col (p.colCells col)).length = p.rows := by
    simp [hf, Panel.colCells]
  have hfills : Fills (fun col => (f col (p.colCells col)).map some) (p.mapColumns f) := by
    intro col hc
    rw [colCells_mapColumns (p := p) f hc (hlength col)]
    simp [Function.comp_def]
  refine hfills.foldlM_panel fun col hc values => ?_
  have hc : col < p.cols := hc
  have hstep : max p.cols 1 = p.cols := Nat.max_eq_left (Nat.zero_lt_of_lt hc)
  simp only [stepBy_values _ hstep hc, List.take_of_length_le (Nat.le_of_eq (hlength col))]
  rfl

/-- The pieces of the buffer are the rows. -/
theorem pieces_values (hc : 0 < p.cols) :
    Panel.pieces p.cols p.values.toList = (List.range p.rows).map p.rowCells := by
  rw [← Panel.flatten_rowCells]
  refine Panel.pieces_flatten (fun cells h => ?_) (Nat.ne_of_gt hc)
  obtain ⟨row, -, rfl⟩ := List.mem_map.mp h
  exact p.length_rowCells row

theorem pieces_replicate (hc : 0 < p.cols) : Panel.pieces p.cols
    (List.replicate p.values.size Cell.missing) = List.replicate p.rows (blankRow p) := by
  have hsize : p.values.size = p.rows * p.cols := p.size_eq
  rw [hsize, ← List.flatten_replicate_replicate, blankRow]
  refine Panel.pieces_flatten (fun cells h => ?_) (Nat.ne_of_gt hc)
  rw [List.eq_of_mem_replicate h, List.length_replicate]

/-- Rows that are written over blank ones, piece by piece. -/
theorem zipWith_pieces (g : Nat → List Float → List Float → List Float) (hc : 0 < p.cols) :
    List.zipWith (fun (source, row) target => g row source target)
        (Panel.pieces p.cols p.values.toList).zipIdx
        (Panel.pieces p.cols (List.replicate p.values.size Cell.missing)) =
      (List.range p.rows).map fun row => g row (p.rowCells row) (blankRow p) := by
  rw [pieces_values hc, pieces_replicate hc]
  refine List.ext_getElem? fun row => ?_
  rw [List.getElem?_zipWith, List.getElem?_zipIdx, List.getElem?_map, List.getElem?_map]
  by_cases hr : row < p.rows
  · simp [hr]
  · rw [List.getElem?_eq_none (by simpa using hr)]
    rfl

theorem mapPieces_eq {g : Nat → List Float → List Float → List Float}
    (hg : ∀ row xs ys, (g row xs ys).length = ys.length) :
    mapPieces p g = (.ok (p.mapRows fun row xs => g row xs (blankRow p)) : Checked ε Panel) := by
  let f := fun row xs => g row xs (blankRow p)
  let q := p.mapRows f
  have hpanel : panel p.dates p.symbols q.values = (.ok q : Checked ε Panel) := dif_pos q.size_eq
  have hsize : p.values.size = p.rows * p.cols := p.size_eq
  refine Eq.trans (congrArg (panel p.dates p.symbols) ?_) hpanel
  refine Array.toList_inj.mp ?_
  by_cases hc : 0 < p.cols
  · rw [if_pos hc, zipWith_pieces g hc, List.toList_toArray, ← Panel.flatten_rowCells q]
    refine congrArg List.flatten (List.map_congr_left fun row hr => ?_)
    have hlength : (f row (p.rowCells row)).length = p.cols := (hg ..).trans List.length_replicate
    exact (Panel.rowCells_mapRows (List.mem_range.mp hr) hlength).symm
  · have hnone : p.cols = 0 := Nat.eq_zero_of_not_pos hc
    have hq : q.values.size = 0 := by
      rw [q.size_eq]
      exact (congrArg (p.rows * ·) hnone).trans (Nat.mul_zero _)
    rw [if_neg hc, hsize, hnone, Nat.mul_zero, Array.eq_empty_of_size_eq_zero hq]
    rfl

end Storage

/-! ## One matrix -/

namespace Panel

variable {p : Panel} {row col : Nat} {date : Date} {symbol : String}

/-- What is read in the buffer of a panel, and written to that of another one, are the cells of the
panel, and no place is outside. -/
structure InBuffer (p : Panel) : Prop where
  valueAt (row col : Nat) :
    Storage.valueAt? p row col = (.ok (p.valueAt? row col) : Storage.Checked Empty _)
  get (date : Date) (symbol : String) :
    Storage.get? p date symbol = (.ok (p.get? date symbol) : Storage.Checked Empty _)
  row (row : Nat) : Storage.row? p row = (.ok (p.row? row) : Storage.Checked Empty _)
  column (col : Nat) : Storage.strided? p col = p.column? col
  columnOf (symbol : String) : p.symbolIndex? symbol >>= Storage.strided? p = p.columnOf? symbol
  mapColumns {f : Nat → List Float → List Float} : (∀ col xs, (f col xs).length = xs.length) →
    Storage.mapStrided p f = (.ok (p.mapColumns f) : Storage.Checked Empty _)
  mapRows {g : Nat → List Float → List Float → List Float} :
    (∀ row xs ys, (g row xs ys).length = ys.length) → Storage.mapPieces p g =
      (.ok (p.mapRows fun row xs => g row xs (Storage.blankRow p)) : Storage.Checked Empty _)

/-- Whichever way a panel is read, it is one matrix: there is a cell for every row and column of it,
every way of reading leads there, and none leads anywhere else. -/
structure IsMatrix (p : Panel) : Prop where
  cell (row col : Nat) : (p.valueAt? row col).isSome ↔ row < p.rows ∧ col < p.cols
  row (row : Nat) : (p.row? row).isSome ↔ row < p.rows
  row_cell (row col : Nat) : p.row? row >>= (·[col]?) = p.valueAt? row col
  column (col : Nat) : (p.column? col).isSome ↔ col < p.cols
  column_cell (row col : Nat) : p.column? col >>= (·[row]?) = p.valueAt? row col
  get (date : Date) (symbol : String) :
    (p.get? date symbol).isSome ↔ date ∈ p.dates ∧ symbol ∈ p.symbols
  get_cell {row col : Nat} {date : Date} {symbol : String} : p.dates[row]? = some date →
    p.symbols[col]? = some symbol → p.get? date symbol = p.valueAt? row col
  columnOf (symbol : String) : (p.columnOf? symbol).isSome ↔ symbol ∈ p.symbols
  columnOf_cell {col : Nat} {symbol : String} : p.symbols[col]? = some symbol →
    ∀ row, p.columnOf? symbol >>= (·[row]?) = p.valueAt? row col
  mapColumns_cell {f : Nat → List Float → List Float} :
    (∀ col xs, (f col xs).length = xs.length) → ∀ row col,
      (p.mapColumns f).valueAt? row col = p.column? col >>= fun xs => (f col xs)[row]?
  mapRows_cell {g : Nat → List Float → List Float → List Float} :
    (∀ row xs ys, (g row xs ys).length = ys.length) → ∀ row col,
      (p.mapRows fun row xs => g row xs (Storage.blankRow p)).valueAt? row col =
        p.row? row >>= fun xs => (g row xs (Storage.blankRow p))[col]?

/-- A security is found in the column where it stands. -/
theorem symbolIndex?_of_getElem? (hn : p.symbols.Nodup) (h : p.symbols[col]? = some symbol) :
    p.symbolIndex? symbol = some col := by
  obtain ⟨found, hfound⟩ := exists_symbolIndex? (List.mem_of_getElem? h)
  rw [hfound, col_unique hn (getElem?_of_symbolIndex? hfound) h]

theorem row?_cell (p : Panel) (row col : Nat) : p.row? row >>= (·[col]?) = p.valueAt? row col := by
  unfold row? valueAt? rowCells
  by_cases hr : row < p.rows <;> by_cases hc : col < p.cols <;> simp [hr, hc]

theorem column?_cell (p : Panel) (row col : Nat) :
    p.column? col >>= (·[row]?) = p.valueAt? row col := by
  unfold column? valueAt? colCells
  by_cases hr : row < p.rows <;> by_cases hc : col < p.cols <;> simp [hr, hc]

theorem row?_mapRows {g : Nat → List Float → List Float}
    (hg : ∀ row xs, (g row xs).length = p.cols) (row : Nat) :
    (p.mapRows g).row? row = (p.row? row).map (g row) := by
  unfold row?
  by_cases hr : row < p.rows
  · rw [if_pos (show row < (p.mapRows g).rows from hr), if_pos hr, Option.map_some,
      rowCells_mapRows hr (hg ..)]
  · rw [if_neg (show ¬ row < (p.mapRows g).rows from hr), if_neg hr]
    rfl

theorem column?_mapColumns {f : Nat → List Float → List Float}
    (hf : ∀ col xs, (f col xs).length = xs.length) (col : Nat) :
    (p.mapColumns f).column? col = (p.column? col).map (f col) := by
  unfold column?
  by_cases hc : col < p.cols
  · have hlength : (f col (p.colCells col)).length = p.rows := by simp [hf, colCells]
    rw [if_pos (show col < (p.mapColumns f).cols from hc), if_pos hc, Option.map_some,
      Storage.colCells_mapColumns f hc hlength]
  · rw [if_neg (show ¬ col < (p.mapColumns f).cols from hc), if_neg hc]
    rfl

theorem isMatrix (hp : p.Valid) : p.IsMatrix where
  cell row col := by
    unfold valueAt?
    split <;> simp_all
  row row := by
    unfold row?
    split <;> simp_all
  row_cell := p.row?_cell
  column col := by
    unfold column?
    split <;> simp_all
  column_cell := p.column?_cell
  get date symbol := by
    refine ⟨fun h => ?_, fun ⟨hd, hs⟩ => ?_⟩
    · refine Decidable.not_not.mp fun hout => ?_
      rw [get?_eq_none hout] at h
      cases h
    · obtain ⟨row, col, -, -, hcell⟩ := exists_get?_eq_cell (nodup_of_increasing hp.dates) hd hs
      exact Option.isSome_of_eq_some hcell
  get_cell := by
    intro row col date symbol hd hs
    rw [get?_eq_cell (nodup_of_increasing hp.dates) hd (symbolIndex?_of_getElem? hp.symbols hs)]
    exact (if_pos ⟨(List.getElem?_eq_some_iff.mp hd).1, lt_cols hs⟩).symm
  columnOf symbol := by
    refine ⟨fun h => ?_, fun hs => ?_⟩
    · refine Decidable.not_not.mp fun hout => ?_
      rw [columnOf?, show p.symbolIndex? symbol = none from List.idxOf?_eq_none_iff.mpr hout] at h
      cases h
    · obtain ⟨col, hcol⟩ := exists_symbolIndex? hs
      rw [columnOf?, hcol]
      exact Option.isSome_of_eq_some (if_pos (lt_cols_of_symbolIndex? hcol))
  columnOf_cell := by
    intro col symbol hs row
    rw [columnOf?, symbolIndex?_of_getElem? hp.symbols hs]
    exact p.column?_cell row col
  mapColumns_cell := by
    intro f hf row col
    rw [← column?_cell, column?_mapColumns hf]
    cases p.column? col <;> rfl
  mapRows_cell := by
    intro g hg row col
    have hlength (row : Nat) (xs : List Float) :
        (g row xs (Storage.blankRow p)).length = p.cols := (hg ..).trans List.length_replicate
    rw [← row?_cell, row?_mapRows hlength]
    cases p.row? row <;> rfl

theorem inBuffer (hp : p.Valid) : p.InBuffer where
  valueAt := Storage.valueAt?_eq p
  get := Storage.get?_eq hp
  row := Storage.row?_eq p
  column := Storage.strided?_eq p
  columnOf symbol := by
    rw [columnOf?, funext (Storage.strided?_eq p)]
  mapColumns := Storage.mapStrided_eq
  mapRows := Storage.mapPieces_eq

/-- **All accessors address one matrix.** Where a panel has a row and a column, reading by places, by
names, by row and by column gives one and the same cell; elsewhere nothing is read. Functions of
columns and of rows are applied to just these cells, and their results stand in place of them. All
this is so in the buffer, where no place is outside. -/
theorem isMatrix_inBuffer (hp : p.Valid) : p.IsMatrix ∧ p.InBuffer :=
  ⟨isMatrix hp, inBuffer hp⟩

end Panel

namespace Quotes

def monday : Date := { year := 2020, month := 6, day := 1 }

def tuesday : Date := { year := 2020, month := 6, day := 2 }

/-- Two securities on two days. -/
def quotes : Panel := ⟨[monday, tuesday], ["A", "B"], #[31, 58, 30, 61], rfl⟩

/-- Two days without any security. -/
def unlisted : Panel := .tabulate [monday, tuesday] [] fun _ _ => Cell.missing

theorem valid_quotes : quotes.Valid := ⟨by decide, by decide⟩

theorem valid_unlisted : unlisted.Valid := ⟨by decide, by decide⟩

end Quotes

open Quotes in
/-- A cell is found by its names and in its column. Where there is no security, there is no stride
to go and no piece to cut off, and nothing is written. -/
theorem Panel.isMatrix_inBuffer_quotes :
    Storage.get? quotes tuesday "A" = (.ok (some 30) : Storage.Checked Empty _) ∧
      Storage.strided? quotes 0 >>= (·[1]?) = some 30 ∧
      ∃ q q', Storage.mapStrided unlisted (fun _ xs => xs.reverse) =
          (.ok q : Storage.Checked Empty _) ∧
        Storage.mapPieces unlisted (fun _ xs ys => ys.map fun _ => xs.headD Cell.missing) =
          (.ok q' : Storage.Checked Empty _) ∧
        ∀ row col, q.valueAt? row col = none ∧ q'.valueAt? row col = none := by
  obtain ⟨hmatrix, hbuffer⟩ := isMatrix_inBuffer valid_quotes
  obtain ⟨hnone, hblank⟩ := isMatrix_inBuffer valid_unlisted
  have hcols (_ : Nat) (xs : List Float) : xs.reverse.length = xs.length := List.length_reverse
  have hrows (_ : Nat) (xs ys : List Float) :
      (ys.map fun _ => xs.headD Cell.missing).length = ys.length := List.length_map _
  refine ⟨?_, ?_, _, _, hblank.mapColumns hcols, hblank.mapRows hrows, fun row col => ⟨?_, ?_⟩⟩
  · have hcell : quotes.get? tuesday "A" = quotes.valueAt? 1 0 := hmatrix.get_cell rfl rfl
    rw [hbuffer.get, hcell]
    rfl
  · rw [hbuffer.column, hmatrix.column_cell]
    rfl
  · have hcolumn : unlisted.column? col = none := if_neg (Nat.not_lt_zero col)
    rw [hnone.mapColumns_cell hcols, hcolumn]
    rfl
  · rw [hnone.mapRows_cell hrows]
    cases unlisted.row? row <;> rfl

end PanelCalc
