import PanelCalc.Proofs.Panel.Aligning
import PanelCalc.Proofs.Storage.Columns

/-! # Alignment over buffers

A panel is brought onto other dates or into another order of its securities by
reading its cells at places that are looked up. Looked up are positions in lists
as long as the panel has columns, and rows for which something was announced, so
all places lie within the buffer. -/
namespace PanelCalc

/-- Every row has an entry for every security. -/
def Announcements.Regular (a : Announcements) : Prop :=
  ∀ row ∈ a.rows, row.length = a.symbols.length

/-- Announcements that have passed their check are regular. -/
theorem Announcements.regular_of_ofRows {symbols : List String} {rows : List (List (Option Date))}
    {a : Announcements} (h : ofRows symbols rows = .ok a) : a.Regular := by
  unfold ofRows at h
  obtain ⟨_, -, h⟩ := bind_ok h
  split at h
  · cases h
  · rename_i hnone
    cases h
    intro row hrow
    simpa using List.find?_eq_none.mp hnone row hrow

/-- All announcements that panels are aligned by are regular. -/
def Alignment.Regular (alignment : Alignment) : Prop :=
  ∀ calendar, alignment.calendar? = some calendar → calendar.announcements.Regular

namespace Storage

variable {ε α β γ : Type} {p q : Panel} {row col : Nat}

/-! ## Order of securities -/

/-- The panel with its securities in the given order. -/
def reorder (p : Panel) (order : List String) : Checked ShapeError Panel := do
  if order.length ≠ p.cols then
    throw (.error (.securityMismatch (Panel.unshared order p.symbols)))
  let columns ← lift (p.columnsOf order)
  let rows ← (List.range p.rows).mapM fun row =>
    columns.mapM fun col => read p.values (row * p.cols + col)
  panel p.dates order rows.flatten.toArray

/-- Rows of one length, one after the other. -/
theorem getElem?_flatten {n : Nat} {rows : List (List α)} (row : Nat) (h : ∀ row ∈ rows, row.length = n)
    (hc : col < n) : rows.flatten[row * n + col]? = rows[row]?.bind (·[col]?) := by
  induction rows generalizing row with
  | nil => simp
  | cons first rows ih =>
    obtain ⟨hfirst, hrows⟩ := List.forall_mem_cons.mp h
    cases row with
    | zero => simp [List.getElem?_append_left, hfirst, hc]
    | succ row =>
      have hi : (row + 1) * n + col = first.length + (row * n + col) := by
        rw [Nat.succ_mul, hfirst]
        omega
      rw [hi, List.flatten_cons, List.getElem?_append_right (Nat.le_add_right ..),
        Nat.add_sub_cancel_left, ih row hrows, List.getElem?_cons_succ]

/-- Securities are looked up among the columns of the panel. -/
theorem columnsOf_ok {order : List String} {columns : List Nat}
    (h : p.columnsOf order = .ok columns) :
    columns.length = order.length ∧ ∀ col ∈ columns, col < p.cols := by
  have hfound := forall₂_of_mapM h
  refine ⟨hfound.length_eq.symm, fun col hcol => ?_⟩
  obtain ⟨i, hi⟩ := List.getElem?_of_mem hcol
  obtain ⟨symbol, -, hs⟩ := getElem?_of_forall₂ hfound.flip hi
  split at hs
  · cases hs
    exact Panel.lt_cols_of_symbolIndex? ‹_›
  · cases hs

/-- **Reordering stays within the buffers.** -/
theorem reorder_eq (p : Panel) (order : List String) :
    reorder p order = lift (p.reorder order) := by
  unfold reorder Panel.reorder
  by_cases hl : order.length ≠ p.cols
  · rw [if_pos hl, if_pos hl]
    rfl
  rw [if_neg hl, if_neg hl]
  refine lift_bind_congr fun columns hcolumns => ?_
  obtain ⟨hlength, hcolumn⟩ := columnsOf_ok hcolumns
  have hrows : (List.range p.rows).mapM (fun row => columns.mapM fun col =>
      read p.values (row * p.cols + col)) =
      (.ok ((List.range p.rows).map fun row => columns.map (p.cell row)) :
        Checked ShapeError _) :=
    mapM_ok fun row hr => mapM_ok fun col hc => read_cell (List.mem_range.mp hr) (hcolumn col hc)
  have hwidth : ∀ row ∈ (List.range p.rows).map (fun row => columns.map (p.cell row)),
      row.length = order.length := by
    intro row hrow
    obtain ⟨_, -, rfl⟩ := List.mem_map.mp hrow
    simpa using hlength
  simp only [bind, Except.bind, hrows]
  refine panel_eq (q := Panel.tabulate p.dates order fun row col =>
    p.cell row (columns.getD col 0)) ?_ fun row hr col hc => ?_
  · simp only [List.size_toArray, List.length_flatten, List.map_map, Function.comp_def,
      List.length_map, hlength, List.map_const', List.length_range, List.sum_replicate_nat]
    rfl
  · have hr : row < p.dates.length := hr
    have hc : col < order.length := hc
    have hcell : (Panel.tabulate p.dates order fun row col =>
        p.cell row (columns.getD col 0)).cell row col = p.cell row (columns.getD col 0) :=
      Panel.cell_tabulate _ hr hc
    have hget := getElem?_flatten row hwidth hc
    rw [hcell, List.getElem?_toArray]
    refine hget.trans ?_
    simp [Panel.rows, hr, hlength ▸ hc, List.getD_eq_getElem?_getD]

/-! ## Announcements -/

/-- The announcement dates at a position, row after row. -/
def announced (a : Announcements) (position : Nat) : Checked ε (List (Option Date)) :=
  a.rows.mapM fun row => read row.toArray position

/-- The cell of a row and a column, or a missing one if there is none. -/
def valueAt (p : Panel) (row col : Nat) : Checked ε Float :=
  if row < p.rows ∧ col < p.cols then read p.values (row * p.cols + col) else return Cell.missing

/-- The cells of a column that show on some days. -/
def shown (p : Panel) (col : Nat) (column : List (Option Date)) (days : List Date) :
    Checked ε (List (Option Float)) :=
  days.mapM fun day =>
    match Announcements.latestRow? column day with
    | some row => some <$> valueAt p row col
    | none => return none

/-- Writes what was known of a security, whose column is given with it. -/
def alignColumn (p : Panel) (a : Announcements) (days : List Date) (values : Array Float)
    (place : String × Nat) : Checked ShapeError (Array Float) :=
  match a.symbols.idxOf? place.1 with
  | some position => do
    let cells ← shown p place.2 (← announced a position) days
    writeAll values (columnWrites p.cols place.2 cells)
  | none => throw (.error (.missingAnnouncements place.1))

/-- What was known on each of the given days. -/
def align (p : Panel) (a : Announcements) (days : List Date) : Checked ShapeError Panel := do
  lift (Panel.checkDates days)
  if p.rows ≠ a.rows.length then
    throw (.error (.rowMismatch p.rows a.rows.length))
  let values ← p.symbols.zipIdx.foldlM (alignColumn p a days)
    (Array.replicate (days.length * p.cols) Cell.missing)
  panel days p.symbols values

theorem announced_eq {a : Announcements} (ha : a.Regular) {position : Nat}
    (hp : position < a.symbols.length) :
    announced a position = (.ok (a.rows.map (·.getD position none)) : Checked ε _) := by
  refine mapM_ok fun row hrow => read_eq ?_
  have hlt : position < row.length := ha row hrow ▸ hp
  simp [hlt]

theorem valueAt_eq (hc : col < p.cols) :
    valueAt p row col = (.ok (p.cell row col) : Checked ε Float) := by
  unfold valueAt
  by_cases hr : row < p.rows
  · rw [if_pos ⟨hr, hc⟩, read_cell hr hc]
  · rw [if_neg fun h => hr h.1, Panel.cell_of_rows_le (Nat.le_of_not_lt hr)]
    rfl

theorem shown_eq (hc : col < p.cols) (column : List (Option Date)) (days : List Date) :
    shown p col column days = (.ok (days.map fun day =>
      (Announcements.latestRow? column day).map (p.cell · col)) : Checked ε _) := by
  refine mapM_ok fun day _ => ?_
  cases Announcements.latestRow? column day with
  | some row => simp only [valueAt_eq hc]; rfl
  | none => rfl

/-- Steps on items and their places fail as the steps on the items do. -/
theorem mapM_zipIdx (e : α → Except ε β) (f : β → Nat → γ) (xs : List α) (k : Nat) :
    (xs.zipIdx k).mapM (fun x => (e x.1).map (f · x.2)) =
      (xs.mapM e).map fun ys => (ys.zipIdx k).map fun y => f y.1 y.2 := by
  induction xs generalizing k with
  | nil => rfl
  | cons x xs ih =>
    simp only [List.zipIdx_cons, List.mapM_cons, ih]
    cases e x with
    | error _ => rfl
    | ok y => cases xs.mapM e <;> rfl

theorem mapM_map (e : α → Except ε β) (f : β → γ) {xs : List α} {g : α → Except ε γ}
    (h : ∀ x, g x = (e x).map f) : xs.mapM g = (xs.mapM e).map (List.map f) := by
  induction xs with
  | nil => rfl
  | cons x xs ih =>
    simp only [List.mapM_cons, ih, h]
    cases e x with
    | error _ => rfl
    | ok y => cases xs.mapM e <;> rfl

/-- The announcement dates of a security, if there are any. -/
def datesOf (a : Announcements) (symbol : String) : Except ShapeError (List (Option Date)) :=
  match a.column? symbol with
  | some column => .ok column
  | none => .error (.missingAnnouncements symbol)

/-- What shows of a column, whose announcement dates are known, on some days. -/
def latest (p : Panel) (days : List Date) (column : List (Option Date)) (col : Nat) :
    List (Option Float) :=
  days.map fun day => (Announcements.latestRow? column day).map (p.cell · col)

/-- The panel that aligning gives once all announcement dates have been found. -/
def aligned (p : Panel) (days : List Date) (columns : List (List (Option Date))) : Panel :=
  .tabulate days p.symbols fun day col =>
    match ((columns.map fun column => days.map (Announcements.latestRow? column)).getD col []).getD
      day none with
    | some row => p.cell row col
    | none => Cell.missing

theorem align_eq_bind (p : Panel) (a : Announcements) (days : List Date) :
    p.align a days = do
      Panel.checkDates days
      if p.rows ≠ a.rows.length then throw (.rowMismatch p.rows a.rows.length)
      return aligned p days (← p.symbols.mapM (datesOf a)) := by
  unfold Panel.align
  cases Panel.checkDates days with
  | error e => rfl
  | ok u =>
    by_cases hr : p.rows ≠ a.rows.length
    · simp only [bind, Except.bind, if_pos hr]
      rfl
    · rw [if_neg hr, if_neg hr,
        mapM_map (datesOf a) fun column => days.map (Announcements.latestRow? column)]
      · cases p.symbols.mapM (datesOf a) <;> rfl
      · intro symbol
        unfold datesOf
        cases a.column? symbol <;> rfl

theorem fills_aligned {days : List Date} {columns : List (List (Option Date))}
    (hl : columns.length = p.cols) :
    Fills (fun col => latest p days (columns.getD col []) col) (aligned p days columns) := by
  intro col hc
  have hc : col < p.cols := hc
  refine List.ext_getElem (by simp [latest, aligned, Panel.colCells, Panel.rows]) fun day hd hd' => ?_
  have hday : day < days.length := by simpa [latest] using hd
  have hcell : (aligned p days columns).cell day col = _ := Panel.cell_tabulate _ hday hc
  simp only [Panel.colCells, List.getElem_map, List.getElem_range, hcell]
  simp only [latest, List.getElem_map, List.getD_eq_getElem?_getD, List.getElem?_map,
    List.getElem?_eq_getElem (hl ▸ hc : col < columns.length), Option.map_some, Option.getD_some,
    List.getElem?_eq_getElem hday]
  cases Announcements.latestRow? columns[col] days[day] <;> rfl

/-- The writes of a security's column. -/
def alignWrites (p : Panel) (days : List Date) (column : List (Option Date)) (col : Nat) :
    List (Nat × Float) :=
  columnWrites p.cols col (latest p days column col)

theorem alignWrites_inside {days : List Date} {column : List (Option Date)} (hc : col < p.cols) :
    ∀ w ∈ alignWrites p days column col,
      w.1 < (Array.replicate (days.length * p.cols) Cell.missing).size := by
  intro w hw
  obtain ⟨row, x, hx, rfl⟩ := mem_columnWrites.mp hw
  have hr : row < days.length := by
    simpa [latest] using (List.getElem?_eq_some_iff.mp hx).1
  simpa using Panel.position_lt hr hc

/-- Once all announcement dates have been found, the panel is written column after column. -/
theorem writeAll_aligned {days : List Date} {columns : List (List (Option Date))}
    (hl : columns.length = p.cols) :
    (writeAll (Array.replicate (days.length * p.cols) Cell.missing)
      (columns.zipIdx.map fun column => alignWrites p days column.1 column.2).flatten >>=
        panel days p.symbols : Checked ε Panel) = .ok (aligned p days columns) := by
  have hfills : Fills (fun col => latest p days (columns.getD col []) col)
      (aligned p days columns) := fills_aligned hl
  have hcolumn {column : List (Option Date)} {col : Nat} (hc : (column, col) ∈ columns.zipIdx) :
      col < p.cols ∧ columns.getD col [] = column := by
    have hget := List.mem_zipIdx_iff_getElem?.mp hc
    exact ⟨hl ▸ (List.getElem?_eq_some_iff.mp hget).1, by rw [List.getD_eq_getElem?_getD, hget]; rfl⟩
  refine writeAll_panel (q := aligned p days columns) ?_ ?_
  · intro w hw
    obtain ⟨ws, hws, hw⟩ := List.mem_flatten.mp hw
    obtain ⟨⟨column, col⟩, hc, rfl⟩ := List.mem_map.mp hws
    obtain ⟨hlt, hget⟩ := hcolumn hc
    refine hfills.inside hlt w ?_
    rw [hget]
    exact hw
  · intro row hr col hc hout
    refine hfills.outside hr hc fun hmem => hout ?_
    have hlt : col < columns.length := hl ▸ hc
    have hget : columns.getD col [] = columns[col] := by
      rw [List.getD_eq_getElem?_getD, List.getElem?_eq_getElem hlt, Option.getD_some]
    obtain ⟨w, hw, hi⟩ := List.mem_map.mp hmem
    rw [hget] at hw
    have hzip : (columns[col], col) ∈ columns.zipIdx :=
      List.mem_zipIdx_iff_getElem?.mpr (List.getElem?_eq_getElem hlt)
    exact List.mem_map.mpr ⟨w, List.mem_flatten.mpr ⟨_, List.mem_map.mpr ⟨_, hzip, rfl⟩, hw⟩, hi⟩

theorem alignColumn_eq {a : Announcements} (ha : a.Regular) (days : List Date)
    (values : Array Float) (symbol : String) (hc : col < p.cols) :
    alignColumn p a days values (symbol, col) =
      lift ((datesOf a symbol).map (alignWrites p days · col)) >>= writeAll values := by
  unfold alignColumn datesOf Announcements.column?
  cases hposition : a.symbols.idxOf? symbol with
  | none => rfl
  | some position =>
    obtain ⟨hlt, -, -⟩ := List.idxOf?_eq_some_iff.mp hposition
    simp only [announced_eq ha hlt, bind, Except.bind, shown_eq hc, Option.map_some]
    rfl

/-- **Aligning stays within the buffers** if every row of the announcements covers all of their
securities. -/
theorem align_eq {a : Announcements} (ha : a.Regular) (p : Panel) (days : List Date) :
    align p a days = lift (p.align a days) := by
  rw [align_eq_bind]
  unfold align
  cases Panel.checkDates days with
  | error e => rfl
  | ok u =>
    by_cases hr : p.rows ≠ a.rows.length
    · simp only [bind, Except.bind, if_pos hr]
      rfl
    · have hplace : ∀ place ∈ p.symbols.zipIdx, place.2 < p.cols := by
        intro place hplace
        exact (List.getElem?_eq_some_iff.mp (List.mem_zipIdx_iff_getElem?.mp hplace)).1
      have hloop : p.symbols.zipIdx.foldlM (alignColumn p a days)
          (Array.replicate (days.length * p.cols) Cell.missing) =
          lift (p.symbols.zipIdx.mapM fun place =>
            (datesOf a place.1).map (alignWrites p days · place.2)) >>= fun writes =>
              writeAll (Array.replicate (days.length * p.cols) Cell.missing) writes.flatten := by
        refine foldlM_writes _ ?_ ?_
        · intro place hplace' values
          exact alignColumn_eq ha days values place.1 (hplace place hplace')
        · intro place hplace' writes hwrites w hw
          cases hdates : datesOf a place.1 with
          | error e =>
            rw [hdates] at hwrites
            cases hwrites
          | ok column =>
            rw [hdates] at hwrites
            cases hwrites
            exact alignWrites_inside (hplace place hplace') w hw
      rw [if_neg hr, if_neg hr, hloop, mapM_zipIdx]
      cases hdates : p.symbols.mapM (datesOf a) with
      | error e => rfl
      | ok columns =>
        have hl : columns.length = p.cols := (forall₂_of_mapM hdates).length_eq.symm
        exact writeAll_aligned hl

/-! ## Bringing panels onto one index -/

/-- The panel on the trading dates. -/
def rebase (alignment : Alignment) (p : Panel) : Checked ShapeError Panel :=
  match alignment.calendar? with
  | some calendar =>
    if p.dates = calendar.tradeDates then return p
    else align p calendar.announcements calendar.tradeDates
  | none => return p

/-- The panel as an operand of a cell-by-cell operation. -/
def prepare (alignment : Alignment) (p : Panel) : Checked ShapeError Panel :=
  match alignment with
  | .always _ => rebase alignment p
  | _ => return p

/-- The panel on the dates of another one. -/
def conformDates (alignment : Alignment) (reference p : Panel) : Checked ShapeError Panel :=
  if p.rows = reference.rows then
    match Alignment.firstDifference? reference.dates p.dates with
    | some row => throw (.error (.dateMismatch row))
    | none => return p
  else
    match alignment.calendar? with
    | none => throw (.error (.missingAlignment reference.rows p.rows))
    | some calendar =>
      if reference.rows < p.rows then throw (.error (.rowMismatch reference.rows p.rows))
      else align p calendar.announcements reference.dates

/-- The panel on the dates of another one and with its securities in the other's order. -/
def conform (alignment : Alignment) (reference p : Panel) : Checked ShapeError Panel := do
  if reference.sameIndex p then return p
  let onDates ← conformDates alignment reference p
  if onDates.symbols = reference.symbols then return onDates
  reorder onDates reference.symbols

/-- Two panels on one index. -/
def reconcile (alignment : Alignment) (left right : Panel) : Checked ShapeError (Panel × Panel) := do
  let left ← prepare alignment left
  let right ← prepare alignment right
  if left.rows < right.rows then return (← conform alignment right left, right)
  else return (left, ← conform alignment left right)

section Regular

variable {alignment : Alignment} (h : alignment.Regular)

include h

theorem rebase_eq (p : Panel) : rebase alignment p = lift (alignment.rebase p) := by
  unfold rebase Alignment.rebase
  cases hc : alignment.calendar? with
  | none => rfl
  | some calendar =>
    by_cases hd : p.dates = calendar.tradeDates
    · simp only [if_pos hd]
      rfl
    · simp only [if_neg hd]
      exact align_eq (h calendar hc) p calendar.tradeDates

theorem prepare_eq (p : Panel) : prepare alignment p = lift (alignment.prepare p) := by
  cases alignment with
  | always calendar => exact rebase_eq h p
  | never => rfl
  | whenNeeded calendar => rfl

theorem conformDates_eq (reference p : Panel) :
    conformDates alignment reference p = lift (alignment.conformDates reference p) := by
  unfold conformDates Alignment.conformDates
  by_cases hr : p.rows = reference.rows
  · rw [if_pos hr, if_pos hr]
    cases Alignment.firstDifference? reference.dates p.dates <;> rfl
  · rw [if_neg hr, if_neg hr]
    cases hc : alignment.calendar? with
    | none => rfl
    | some calendar =>
      by_cases hlt : reference.rows < p.rows
      · simp only [if_pos hlt]
        rfl
      · simp only [if_neg hlt]
        exact align_eq (h calendar hc) p reference.dates

theorem conform_eq (reference p : Panel) :
    conform alignment reference p = lift (alignment.conform reference p) := by
  unfold conform Alignment.conform
  by_cases hs : reference.sameIndex p
  · rw [if_pos hs, if_pos hs]
    rfl
  · rw [if_neg hs, if_neg hs, conformDates_eq h]
    refine lift_bind_congr fun onDates _ => ?_
    by_cases hs : onDates.symbols = reference.symbols
    · rw [if_pos hs, if_pos hs]
      rfl
    · rw [if_neg hs, if_neg hs]
      exact reorder_eq onDates reference.symbols

/-- **Bringing two panels onto one index stays within the buffers.** -/
theorem reconcile_eq (left right : Panel) :
    reconcile alignment left right = lift (alignment.reconcile left right) := by
  unfold reconcile Alignment.reconcile
  rw [prepare_eq h]
  refine lift_bind_congr fun left _ => ?_
  rw [prepare_eq h]
  refine lift_bind_congr fun right _ => ?_
  by_cases hlt : left.rows < right.rows
  · rw [if_pos hlt, if_pos hlt, conform_eq h]
    exact lift_bind_congr fun _ _ => rfl
  · rw [if_neg hlt, if_neg hlt, conform_eq h]
    exact lift_bind_congr fun _ _ => rfl

end Regular

end Storage

end PanelCalc
