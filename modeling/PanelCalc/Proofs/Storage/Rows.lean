import PanelCalc.Proofs.Panel.Ranks
import PanelCalc.Proofs.Storage.Columns

/-! # Ranks over buffers

The cells of a row lie side by side, and so do those of the panel that selects
or groups them. Ranks are written at the places of the cells that were selected,
all of which lie within the row. -/
namespace PanelCalc.Storage

open Ranking

variable {ε : Type} {p q : Panel} {row col : Nat} {cells : List Float} {flags : List Bool}

/-! ## Reading -/

/-- Some places of a buffer, side by side. -/
def slice {α : Type} (values : Array α) (start count : Nat) : Checked ε (List α) :=
  if start + count ≤ values.size then .ok (values.extract start (start + count)).toList
  else .error (.outOfRange (start + count) values.size)

theorem slice_row (hr : row < p.rows) :
    slice p.values (row * p.cols) p.cols = (.ok (p.rowCells row) : Checked ε _) := by
  have hend : row * p.cols + p.cols ≤ p.values.size := by
    rw [p.size_eq, ← Nat.succ_mul]
    exact Nat.mul_le_mul_right _ hr
  rw [slice, if_pos hend]
  congr 1
  refine List.ext_getElem ?_ fun col hc hc' => ?_
  · simp [Panel.rowCells]
    omega
  · have hc : col < p.cols := by simpa [Panel.rowCells] using hc'
    have hi : row * p.cols + col < p.values.size := by omega
    simp [Panel.rowCells, Panel.cell, hi]

/-! ## Ranking -/

/-- The cells of a row that are selected, with their places. -/
def chosen (cells : List Float) (flags : List Bool) : List (Float × Nat) :=
  (cells.zipIdx.zip flags).filterMap fun (cell, isChosen) => if isChosen then some cell else none

/-- The ranks of the cells of a row that are selected, with their places. -/
def placings (cells : List Float) (flags : List Bool) : List (Nat × Float) :=
  let sorted := (chosen cells flags).mergeSort fun a b => precedes a.1 b.1
  sorted.map fun cell => (cell.2, averagePlace (sorted.map (·.1)) cell.1)

/-- The ranks of the cells of a row that are selected by their places. -/
def rankRow (cells : List Float) (included : Nat → Checked ε Bool) : Checked ε (List Float) := do
  let flags ← cells.zipIdx.mapM fun (x, i) => if x.isNaN then return false else included i
  let ranks ← writeAll (Array.replicate cells.length Cell.missing) (placings cells flags)
  return ranks.toList

/-- Which cells are selected, once the missing ones are left out. -/
def known (cells : List Float) (flags : List Bool) : List Bool :=
  List.zipWith (fun x flag => !x.isNaN && flag) cells flags

theorem mem_chosen {x : Float} {i : Nat} : (x, i) ∈ chosen cells flags ↔
    cells[i]? = some x ∧ flags[i]? = some true := by
  rw [chosen, List.mem_filterMap]
  constructor
  · intro h
    obtain ⟨⟨cell, flag⟩, hmem, hcell⟩ := h
    obtain ⟨k, hk⟩ := List.getElem?_of_mem hmem
    obtain ⟨hc, hflag⟩ := List.getElem?_zip_eq_some.mp hk
    rw [List.getElem?_zipIdx] at hc
    obtain ⟨y, hy, rfl⟩ := Option.map_eq_some_iff.mp hc
    cases flag with
    | false => cases hcell
    | true =>
      cases hcell
      simpa using And.intro hy hflag
  · intro h
    refine ⟨((x, i), true), List.mem_of_getElem? (i := i) ?_, rfl⟩
    rw [List.getElem?_zip_eq_some, List.getElem?_zipIdx, h.1]
    exact ⟨by simp, h.2⟩

theorem known_getElem? {x : Float} {flag : Bool} {i : Nat} (hx : cells[i]? = some x)
    (hf : flags[i]? = some flag) : (known cells flags)[i]? = some (!x.isNaN && flag) := by
  rw [known, List.getElem?_zipWith, hx, hf]

/-- The cells that are ranked, in the order of their places. -/
theorem map_chosen (cells : List Float) (flags : List Bool) :
    (chosen cells (known cells flags)).map (·.1) = peers (cells.zip flags) := by
  suffices h : ∀ k, (((cells.zipIdx k).zip (known cells flags)).filterMap fun (cell, isChosen) =>
      if isChosen then some cell else none).map (·.1) = peers (cells.zip flags) from h 0
  induction cells generalizing flags with
  | nil => intro k; rfl
  | cons x cells ih =>
    intro k
    cases flags with
    | nil => rfl
    | cons flag flags =>
      have hrest := ih flags (k + 1)
      have hcomm : (flag && !x.isNaN) = (!x.isNaN && flag) := Bool.and_comm ..
      simp only [known, peers, List.zipIdx_cons, List.zipWith_cons_cons, List.zip_cons_cons,
        List.filterMap_cons, hcomm] at hrest ⊢
      cases !x.isNaN && flag with
      | true => exact congrArg (x :: ·) hrest
      | false => exact hrest

/-- The places are sorted with their cells. -/
theorem map_sorted_chosen (cells : List Float) (flags : List Bool) :
    ((chosen cells (known cells flags)).mergeSort fun a b => precedes a.1 b.1).map (·.1) =
      (peers (cells.zip flags)).mergeSort precedes := by
  rw [← map_chosen]
  exact List.map_mergeSort fun _ _ _ _ => rfl

theorem mapM_known {included : Nat → Checked ε Bool} (hl : flags.length = cells.length)
    (h : ∀ i flag, flags[i]? = some flag → included i = .ok flag) :
    cells.zipIdx.mapM (fun (x, i) => if x.isNaN then return false else included i) =
      .ok (known cells flags) := by
  have hall : cells.zipIdx.map (fun cell => (known cells flags).getD cell.2 false) =
      known cells flags := by
    refine List.ext_getElem? fun i => ?_
    rw [List.getElem?_map, List.getElem?_zipIdx]
    by_cases hi : i < cells.length
    · have hx := known_getElem? (List.getElem?_eq_getElem hi) (List.getElem?_eq_getElem (hl ▸ hi))
      simp [hi, hx]
    · have hlength : (known cells flags).length = cells.length := by simp [known, hl]
      rw [List.getElem?_eq_none (by omega), List.getElem?_eq_none (by omega)]
      rfl
  rw [← hall]
  refine mapM_ok fun cell hcell => ?_
  have hx : cells[cell.2]? = some cell.1 := List.mem_zipIdx_iff_getElem?.mp hcell
  have hi : cell.2 < cells.length := (List.getElem?_eq_some_iff.mp hx).1
  have hf : flags[cell.2]? = some flags[cell.2] := List.getElem?_eq_getElem (hl ▸ hi)
  rw [List.getD_eq_getElem?_getD, known_getElem? hx hf, Option.getD_some]
  by_cases hn : cell.1.isNaN = true
  · rw [hn]
    exact if_pos hn
  · rw [Bool.eq_false_iff.mpr hn]
    exact (if_neg hn).trans (h _ _ hf)

/-- Ranks are given to the cells that are selected and not missing. -/
theorem mem_placings {w : Nat × Float} (hl : flags.length = cells.length) :
    w ∈ placings cells (known cells flags) ↔
      ∃ cell, (cells.zip flags)[w.1]? = some cell ∧ (cell.2 && !cell.1.isNaN) = true ∧
        w.2 = rankIn (cells.zip flags) cell := by
  let sorted := (chosen cells (known cells flags)).mergeSort fun a b => precedes a.1 b.1
  have hsorted : sorted.map (·.1) = (peers (cells.zip flags)).mergeSort precedes :=
    map_sorted_chosen cells flags
  have hmem {x : Float} {i : Nat} : (x, i) ∈ sorted ↔
      ∃ flag, (cells.zip flags)[i]? = some (x, flag) ∧ (flag && !x.isNaN) = true := by
    rw [List.mem_mergeSort, mem_chosen]
    constructor
    · intro h
      obtain ⟨hx, hk⟩ := h
      have hi : i < cells.length := (List.getElem?_eq_some_iff.mp hx).1
      have hf : flags[i]? = some flags[i] := List.getElem?_eq_getElem (hl ▸ hi)
      rw [known_getElem? hx hf, Option.some.injEq, Bool.and_comm] at hk
      exact ⟨flags[i], List.getElem?_zip_eq_some.mpr ⟨hx, hf⟩, hk⟩
    · intro h
      obtain ⟨flag, hcell, hk⟩ := h
      obtain ⟨hx, hf⟩ := List.getElem?_zip_eq_some.mp hcell
      exact ⟨hx, by rw [known_getElem? hx hf, Bool.and_comm, hk]⟩
  constructor
  · intro hw
    obtain ⟨⟨x, i⟩, hcell, rfl⟩ := List.mem_map.mp hw
    obtain ⟨flag, hcell, hk⟩ := hmem.mp hcell
    exact ⟨(x, flag), hcell, hk, by rw [rankIn, if_pos hk, hsorted]⟩
  · intro h
    obtain ⟨⟨x, flag⟩, hcell, hk, hw⟩ := h
    refine List.mem_map.mpr ⟨(x, w.1), hmem.mpr ⟨flag, hcell, hk⟩, Prod.ext rfl ?_⟩
    rw [hw, rankIn, if_pos hk, hsorted]

/-- **Ranks that are written place by place** are those of the row. -/
theorem rankRow_eq {included : Nat → Checked ε Bool} (hl : flags.length = cells.length)
    (h : ∀ i flag, flags[i]? = some flag → included i = .ok flag) :
    rankRow cells included = .ok (selected flags cells) := by
  let row := cells.zip flags
  -- what belongs at a place is the rank of its cell in the row
  let rank (i : Nat) : Float := (row[i]?.map (rankIn row)).getD Cell.missing
  have hlength : row.length = cells.length := by simp [row, hl]
  have inside : ∀ w ∈ placings cells (known cells flags),
      w.1 < (Array.replicate cells.length Cell.missing).size ∧ w.2 = rank w.1 := by
    intro w hw
    obtain ⟨cell, hcell, -, hrank⟩ := (mem_placings hl).mp hw
    have hi : w.1 < row.length := (List.getElem?_eq_some_iff.mp hcell).1
    exact ⟨by simpa [hlength] using hi, by simp only [rank, row, hcell, hrank]; rfl⟩
  have outside {i : Nat} {cell : Float × Bool} (hcell : row[i]? = some cell)
      (hout : i ∉ (placings cells (known cells flags)).map (·.1)) :
      rankIn row cell = Cell.missing := by
    refine if_neg fun hk => hout ?_
    exact List.mem_map.mpr ⟨(i, rankIn row cell), (mem_placings hl).mpr ⟨cell, hcell, hk, rfl⟩, rfl⟩
  obtain ⟨ranks, hranks, -⟩ := writeAll_inside (ε := ε) fun w hw => (inside w hw).1
  have hlist : ranks.toList = selected flags cells := by
    refine List.ext_getElem? fun i => ?_
    rw [Array.getElem?_toList, writeAll_getElem? rank inside hranks, selected_eq_map,
      List.getElem?_map]
    cases hcell : row[i]? with
    | none =>
      have hi : cells.length ≤ i := hlength ▸ List.getElem?_eq_none_iff.mp hcell
      rw [if_neg, Array.getElem?_eq_none (by simpa using hi)]
      · rfl
      · intro hmem
        obtain ⟨w, hw, rfl⟩ := List.mem_map.mp hmem
        exact absurd (inside w hw).1 (by simpa using hi)
    | some cell =>
      have hi : i < cells.length := hlength ▸ (List.getElem?_eq_some_iff.mp hcell).1
      split
      · simp only [rank, hcell]
        rfl
      · rename_i hout
        rw [Option.map_some, outside hcell hout]
        simp [hi]
  simp only [rankRow, mapM_known hl h, bind, Except.bind]
  rw [hranks]
  exact congrArg Except.ok hlist

/-- The ranks of the cells whose condition is known and true. -/
def rankChosen (conditions cells : List Float) : Checked ε (List Float) :=
  rankRow cells fun i => do
    let condition ← read conditions.toArray i
    return Cell.isTrue condition && !condition.isNaN

/-- The ranks of the cells among those with the same group value. -/
def rankGroups (groups cells : List Float) : Checked ε (List Float) :=
  groups.zipIdx.mapM fun (group, col) => do
    let ranks ← rankRow cells fun i => return (← read groups.toArray i) == group
    read ranks.toArray col

/-- Every cell is chosen. -/
theorem included_all (cells : List Float) (i : Nat) (flag : Bool)
    (hf : (cells.map fun _ => true)[i]? = some flag) : (return true : Checked ε Bool) = .ok flag := by
  rw [List.getElem?_map] at hf
  obtain ⟨_, -, rfl⟩ := Option.map_eq_some_iff.mp hf
  rfl

theorem rankRow_all (cells : List Float) :
    rankRow cells (fun _ => return true) = (.ok (all cells) : Checked ε _) :=
  rankRow_eq (by simp) (included_all cells)

/-- A key of every cell, asked about at its place. -/
theorem included_map {keys : List Float} (f : Float → Bool) (i : Nat) (flag : Bool)
    (hf : (keys.map f)[i]? = some flag) :
    (do return f (← read keys.toArray i) : Checked ε Bool) = .ok flag := by
  rw [List.getElem?_map] at hf
  obtain ⟨key, hkey, rfl⟩ := Option.map_eq_some_iff.mp hf
  rw [read_eq (by simpa using hkey)]
  rfl

theorem rankRow_map {keys : List Float} (hl : keys.length = cells.length) (f : Float → Bool) :
    rankRow cells (fun i => return f (← read keys.toArray i)) =
      (.ok (selected (keys.map f) cells) : Checked ε _) :=
  rankRow_eq (by simpa using hl) (included_map f)

theorem rankChosen_eq {conditions : List Float} (hl : conditions.length = cells.length) :
    rankChosen conditions cells = (.ok (byCondition conditions cells) : Checked ε _) :=
  rankRow_map hl fun x => Cell.isTrue x && !x.isNaN

theorem rankGroups_eq {groups : List Float} (hl : groups.length = cells.length) :
    rankGroups groups cells = (.ok (byGroup groups cells) : Checked ε _) := by
  refine mapM_ok fun (group, col) hg => ?_
  have hc : col < groups.length := by
    simpa using (List.getElem?_eq_some_iff.mp (List.mem_zipIdx_iff_getElem?.mp hg)).1
  have hlength : (selected (groups.map (· == group)) cells).length = cells.length := by
    simp [selected_eq_map, hl]
  have hranks : rankRow cells (fun i => return (← read groups.toArray i) == group) =
      (.ok (selected (groups.map (· == group)) cells) : Checked ε _) :=
    rankRow_map hl (· == group)
  change (rankRow cells (fun i => return (← read groups.toArray i) == group) >>=
    fun ranks => read ranks.toArray col) = _
  rw [hranks]
  exact read_eq (by simp [List.getD_eq_getElem?_getD, hlength, ← hl, hc])

/-! ## Writing -/

/-- The writes of the cells of a row. -/
def rowWrites (cols row : Nat) (cells : List Float) : List (Nat × Float) :=
  cells.zipIdx.map fun (x, col) => (row * cols + col, x)

/-- The panel with the cells of every row replaced by their image. -/
def mapRows (p : Panel) (f : Nat → List Float → Checked ε (List Float)) : Checked ε Panel := do
  let rows := if 0 < p.cols then List.range p.rows else []
  let values ← rows.foldlM (fun values row => do
    let image ← f row (← slice p.values (row * p.cols) p.cols)
    expect p.cols image.length
    writeAll values (rowWrites p.cols row image))
    (Array.replicate p.values.size Cell.missing)
  panel p.dates p.symbols values

theorem mem_rowWrites {cols : Nat} {w : Nat × Float} : w ∈ rowWrites cols row cells ↔
    ∃ col x, cells[col]? = some x ∧ w = (row * cols + col, x) := by
  simp only [rowWrites, List.mem_map, Prod.exists, List.mem_zipIdx_iff_getElem?]
  constructor
  · intro h
    obtain ⟨x, col, hx, rfl⟩ := h
    exact ⟨col, x, hx, rfl⟩
  · intro h
    obtain ⟨col, x, hx, rfl⟩ := h
    exact ⟨x, col, hx, rfl⟩

theorem mapRows_eq {f : Nat → List Float → Checked ε (List Float)}
    {g : Nat → List Float → List Float}
    (hf : ∀ row < p.rows, f row (p.rowCells row) = .ok (g row (p.rowCells row)))
    (hl : ∀ row < p.rows, (g row (p.rowCells row)).length = p.cols) :
    mapRows p f = .ok (p.mapRows g) := by
  have hcell {row col : Nat} (hr : row < p.rows) (hc : col < p.cols) :
      (g row (p.rowCells row))[col]? = some ((p.mapRows g).cell row col) := by
    have hi : col < (g row (p.rowCells row)).length := by rwa [hl row hr]
    rw [Panel.cell_mapRows _ hr hc, List.getElem?_eq_getElem hi, Option.getD_some]
  have hrow {row : Nat} (hr : row ∈ if 0 < p.cols then List.range p.rows else []) :
      row < p.rows := by
    split at hr
    · exact List.mem_range.mp hr
    · cases hr
  have hsize : p.values.size = (p.mapRows g).rows * (p.mapRows g).cols := p.size_eq
  rw [mapRows, hsize]
  refine foldlM_panel (q := p.mapRows g) (fun row => rowWrites p.cols row (g row (p.rowCells row)))
    ?_ ?_ ?_
  · intro row hr values
    have hr := hrow hr
    simp only [slice_row hr, hf row hr, hl row hr, expect_self, bind, Except.bind]
  · intro row hr w hw
    obtain ⟨col, x, hx, rfl⟩ := mem_rowWrites.mp hw
    have hr := hrow hr
    have hc : col < p.cols := hl row hr ▸ (List.getElem?_eq_some_iff.mp hx).1
    rw [hcell hr hc] at hx
    exact ⟨row, hr, col, hc, by rw [← Option.some.inj hx]; rfl⟩
  · intro row hr col hc hout
    have hmem : (row * p.cols + col, (p.mapRows g).cell row col) ∈
        rowWrites p.cols row (g row (p.rowCells row)) :=
      mem_rowWrites.mpr ⟨col, _, hcell hr hc, rfl⟩
    have hrow : row ∈ if 0 < p.cols then List.range p.rows else [] := by
      rw [if_pos (show 0 < p.cols from Nat.zero_lt_of_lt hc)]
      exact List.mem_range.mpr hr
    exact absurd (List.mem_map.mpr ⟨_, hmem, rfl⟩) (hout row hrow)

end PanelCalc.Storage
