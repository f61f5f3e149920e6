import PanelCalc.Panel.Wire
import PanelCalc.Proofs.Double.Order
import PanelCalc.Proofs.Panel.Aligning
import PanelCalc.Proofs.Panel.Building

/-! # Exchanging panels

A panel is written as rows of optional cells, and received where those rows make
a panel. What a writer has no form for, an infinite cell, is received as a
missing one, as are the cells that were left out; everything else is received as
it was sent, also where there are no rows or no columns. -/
namespace PanelCalc

open Float.Model.UnpackedFloat in
/-- Doubles are finite, infinite or missing. -/
theorem Double.isFinite_eq_false {x : Float} : x.isFinite = false ↔ x.isNaN ∨ x.isInf := by
  show x.toModel.unpack.isFinite = false ↔
    x.toModel.unpack.isNaN = true ∨ x.toModel.unpack.isInf = true
  cases x.toModel.unpack with
  | notANumber => exact iff_of_true rfl (.inl rfl)
  | infinity => exact iff_of_true rfl (.inr rfl)
  | zero | finite => exact iff_of_false nofun fun h => h.elim nofun nofun

namespace Panel

/-- A writer of finite numbers, which are read back as they were. -/
structure Writes (write : Float → Option Float) : Prop where
  finite : ∀ x : Float, x.isFinite → write x = some x
  other : ∀ x : Float, x.isFinite = false → write x = none

theorem writes_jsonNumber? : Writes jsonNumber? where
  finite _ h := if_pos h
  other _ h := if_neg (by simp [h])

variable {p q : Panel} {wire : Wire} {row col : Nat} {x : Float} {write : Float → Option Float}

/-! ## Cells -/

/-- What a cell is received as. -/
def received (write : Float → Option Float) (x : Float) : Float :=
  ((toWireCell x).bind write).getD Cell.missing

theorem received_eq_self (hw : Writes write) (h : x.isFinite) : received write x = x := by
  have hn : ¬ x.isNaN := fun hn => by
    cases (Double.isFinite_eq_false.mpr (.inl hn)).symm.trans h
  rw [received, toWireCell, if_neg hn, Option.bind_some, hw.finite x h, Option.getD_some]

theorem received_eq_missing (hw : Writes write) (h : x.isFinite = false) :
    received write x = Cell.missing := by
  rw [received, toWireCell]
  split
  · rfl
  · rw [Option.bind_some, hw.other x h, Option.getD_none]

theorem received_missing (hw : Writes write) : received write Cell.missing = Cell.missing :=
  received_eq_missing hw (Double.isFinite_eq_false.mpr (.inl Cell.isNaN_missing))

theorem isNaN_received (hw : Writes write) : (received write x).isNaN ↔ x.isNaN ∨ x.isInf := by
  rw [← Double.isFinite_eq_false]
  cases hx : x.isFinite with
  | false => simp only [received_eq_missing hw hx, Cell.isNaN_missing]
  | true =>
    rw [received_eq_self hw hx]
    refine iff_of_false (fun hn => ?_) nofun
    cases (Double.isFinite_eq_false.mpr (.inl hn)).symm.trans hx

/-! ## Panels -/

/-- A number that is exchanged is finite. -/
def Wire.Finite (wire : Wire) : Prop := ∀ row ∈ wire.rows, ∀ x, some x ∈ row → x.isFinite

/-- What is exchanged makes a panel. -/
structure Wire.Fits (wire : Wire) : Prop where
  widths : ∀ row ∈ wire.rows, row.length = wire.symbols.length
  count : wire.rows.length = wire.dates.length
  dates : wire.dates.Pairwise (· < ·)
  symbols : wire.symbols.Nodup

/-- The cells of every row, with missing ones for those that were left out. -/
def Wire.cells (wire : Wire) : List (List Float) := wire.rows.map (·.map (·.getD Cell.missing))

theorem ofWire_eq_ok : ofWire wire = .ok q ↔
    wire.Fits ∧ q.dates = wire.dates ∧ q.symbols = wire.symbols ∧
      q.values.toList = wire.cells.flatten := by
  have hwidths : (∀ row ∈ wire.cells, row.length = wire.symbols.length) ↔
      ∀ row ∈ wire.rows, row.length = wire.symbols.length := by
    simp [Wire.cells]
  have hcount : wire.cells.length = wire.rows.length := List.length_map ..
  rw [ofWire, ← Wire.cells, ofRows_eq_ok, hwidths, hcount]
  exact and_congr_left' ⟨fun h => ⟨h.1, h.2.1, h.2.2.1, h.2.2.2⟩,
    fun h => ⟨h.widths, h.count, h.dates, h.symbols⟩⟩

/-- What fits is received. -/
theorem exists_ofWire_iff : (∃ q, ofWire wire = .ok q) ↔ wire.Fits := by
  constructor
  · rintro ⟨q, h⟩
    exact (ofWire_eq_ok.mp h).1
  · intro h
    have hwidths : ∀ row ∈ wire.cells, row.length = wire.symbols.length := by
      simpa [Wire.cells] using h.widths
    have hsize : wire.cells.flatten.length = wire.dates.length * wire.symbols.length := by
      rw [length_flatten_of_length hwidths, ← h.count, Wire.cells, List.length_map]
    let q : Panel := ⟨wire.dates, wire.symbols, wire.cells.flatten.toArray, by simpa using hsize⟩
    exact ⟨q, ofWire_eq_ok.mpr ⟨h, rfl, rfl, rfl⟩⟩

theorem length_of_mem_written (p : Panel) : ∀ row ∈ p.written.rows, row.length = p.cols := by
  intro row hrow
  obtain ⟨i, -, rfl⟩ := List.mem_map.mp hrow
  rw [List.length_map]
  exact length_rowCells p i

/-- A valid panel is sent in a form that fits. -/
theorem Valid.fits (hp : p.Valid) (write : Float → Option Float) : (p.sent write).Fits where
  widths := by
    intro row hrow
    obtain ⟨cells, hcells, rfl⟩ := List.mem_map.mp hrow
    rw [List.length_map]
    exact length_of_mem_written p cells hcells
  count := (List.length_map ..).trans ((List.length_map ..).trans List.length_range)
  dates := hp.dates
  symbols := hp.symbols

theorem finite_sent (hw : Writes write) (p : Panel) : (p.sent write).Finite := by
  intro row hrow x hx
  obtain ⟨cells, -, rfl⟩ := List.mem_map.mp hrow
  obtain ⟨cell, -, hcell⟩ := List.mem_map.mp hx
  obtain ⟨y, -, hy⟩ := Option.bind_eq_some_iff.mp hcell
  cases hfinite : y.isFinite with
  | true =>
    rw [hw.finite y hfinite] at hy
    cases hy
    exact hfinite
  | false =>
    rw [hw.other y hfinite] at hy
    cases hy

/-- What is written are the cells of the buffer, one after the other. -/
theorem flatten_written (p : Panel) :
    p.written.rows.flatten = p.values.toList.map toWireCell := by
  rw [← flatten_rowCells, List.map_flatten, List.map_map]
  rfl

/-- The pieces of a list that are cut off its front one after the other. -/
def pieces {α : Type} (width : Nat) (xs : List α) : List (List α) :=
  if xs = [] ∨ width = 0 then [] else xs.take width :: pieces width (xs.drop width)
termination_by xs.length
decreasing_by
  have hpos : 0 < xs.length := List.length_pos_iff.mpr (by tauto)
  rw [List.length_drop]
  omega

theorem pieces_flatten {α : Type} {width : Nat} {rows : List (List α)}
    (hwidth : ∀ row ∈ rows, row.length = width) (hpos : width ≠ 0) :
    pieces width rows.flatten = rows := by
  induction rows with
  | nil =>
    rw [List.flatten_nil, pieces]
    exact if_pos (.inl rfl)
  | cons row rows ih =>
    obtain ⟨hrow, hrows⟩ := List.forall_mem_cons.mp hwidth
    have hne : ¬ (row ++ rows.flatten = [] ∨ width = 0) := by
      rintro (h | h)
      · rw [(List.append_eq_nil_iff.mp h).1] at hrow
        exact hpos hrow.symm
      · exact hpos h
    rw [List.flatten_cons, pieces, if_neg hne, List.take_left' hrow, List.drop_left' hrow,
      ih hrows]

/-- The rows that are written are cut from the buffer. Where there are no columns nothing is left
to cut, and a row without cells stands for every date. -/
theorem rows_written (p : Panel) : p.written.rows =
    if p.cols = 0 then List.replicate p.rows []
    else pieces p.cols (p.values.toList.map toWireCell) := by
  have hwidth := length_of_mem_written p
  split
  · rename_i hcols
    refine List.eq_replicate_iff.mpr ⟨?_, fun row hrow => ?_⟩
    · exact (List.length_map ..).trans List.length_range
    · exact List.length_eq_zero_iff.mp ((hwidth row hrow).trans hcols)
  · rename_i hcols
    rw [← flatten_written, pieces_flatten hwidth hcols]

theorem cells_sent (write : Float → Option Float) (p : Panel) :
    (p.sent write).cells.flatten = p.values.toList.map (received write) := by
  have hrows : (p.sent write).rows = p.written.rows.map (·.map (·.bind write)) := rfl
  rw [Wire.cells, ← List.map_flatten, hrows, ← List.map_flatten, flatten_written, List.map_map,
    List.map_map]
  rfl

theorem toList_map_values (p : Panel) (f : Float → Float) :
    (p.map f).values.toList = p.values.toList.map f := by
  have hrow : ∀ row ∈ List.range p.rows,
      (p.map f).rowCells row = (List.map f ∘ p.rowCells) row := by
    intro row hr
    refine List.ext_getElem (by simp [rowCells]; rfl) fun col hc hc' => ?_
    have hcol : col < p.cols := by simpa [rowCells] using hc'
    simp only [rowCells, List.getElem_map, List.getElem_range, Function.comp_apply]
    exact cell_remap _ (List.mem_range.mp hr) hcol
  rw [← flatten_rowCells, ← flatten_rowCells, List.map_flatten, List.map_map,
    ← List.map_congr_left hrow]
  rfl

/-- **A panel that is sent is received** with its cells as they can be sent. -/
theorem ofWire_sent_eq (hp : p.Valid) (write : Float → Option Float) :
    ofWire (p.sent write) = .ok (p.map (received write)) :=
  ofWire_eq_ok.mpr ⟨hp.fits write, rfl, rfl, by rw [toList_map_values, cells_sent]⟩

/-- What is received stands where it was sent. -/
theorem cell_ofWire (h : ofWire wire = .ok q) {cells : List (Option Float)} {x : Option Float}
    (hrow : wire.rows[row]? = some cells) (hcol : cells[col]? = some x) :
    q.cell row col = x.getD Cell.missing := by
  obtain ⟨fits, -, hs, hv⟩ := ofWire_eq_ok.mp h
  have hwidths : ∀ row ∈ wire.cells, row.length = q.cols := by
    simpa [Wire.cells, cols, hs] using fits.widths
  have hc : col < q.cols := by
    have hwidth := fits.widths cells (List.mem_of_getElem? hrow)
    rw [cols, hs, ← hwidth]
    exact (List.getElem?_eq_some_iff.mp hcol).1
  rw [cell, Array.getD_eq_getD_getElem?, ← Array.getElem?_toList, hv,
    getElem?_flatten_of_length hwidths hc]
  simp [Wire.cells, hrow, hcol]

/-- What was received from finite numbers is received again. -/
theorem ofWire_sent_of_ofWire (hw : Writes write) (h : ofWire wire = .ok q) (hf : wire.Finite) :
    ofWire (q.sent write) = .ok q := by
  obtain ⟨fits, hd, hs, hv⟩ := ofWire_eq_ok.mp h
  have hq : q.Valid := ⟨hd ▸ fits.dates, hs ▸ fits.symbols⟩
  refine ofWire_eq_ok.mpr ⟨hq.fits write, rfl, rfl, ?_⟩
  rw [cells_sent, hv, Wire.cells]
  refine ((List.map_congr_left fun x hx => ?_).trans (List.map_id _)).symm
  obtain ⟨cells, hcells, hx⟩ := List.mem_flatten.mp hx
  obtain ⟨row, hrow, rfl⟩ := List.mem_map.mp hcells
  obtain ⟨sent, hsent, rfl⟩ := List.mem_map.mp hx
  cases sent with
  | none => exact received_missing hw
  | some x => exact received_eq_self hw (hf row hrow x hsent)

/-- **Exchanged panels survive** a writer of finite numbers. A valid panel that is
sent is received with its dates and securities, every finite cell as it was, and
missing cells where they were missing or infinite. Whatever is received is a valid
panel that holds what was sent, and is received again as it is. Received is what
has as many rows as dates, each of them as wide as the securities, with increasing
dates and different securities; the rest is turned down for a fault that it has. -/
theorem ofWire_sent (hw : Writes write) :
    (∀ p : Panel, p.Valid → (p.sent write).Finite ∧ ∃ q, ofWire (p.sent write) = .ok q ∧
      q.Valid ∧ q.IndexedAs p ∧ ∀ row < p.rows, ∀ col < p.cols,
        ((p.cell row col).isFinite → q.cell row col = p.cell row col) ∧
        ((q.cell row col).isNaN ↔ (p.cell row col).isNaN ∨ (p.cell row col).isInf)) ∧
    (∀ wire q, ofWire wire = .ok q → q.Valid ∧ q.dates = wire.dates ∧ q.symbols = wire.symbols ∧
      (∀ row col cells x, wire.rows[row]? = some cells → cells[col]? = some x →
        q.cell row col = x.getD Cell.missing) ∧
      (wire.Finite → ofWire (q.sent write) = .ok q)) ∧
    ∀ wire, ((∃ q, ofWire wire = .ok q) ↔ wire.Fits) ∧
      ∀ e, ofWire wire = .error e → Fault wire.dates wire.symbols wire.cells e := by
  refine ⟨fun p hp => ?sent, fun wire q h => ?again, fun wire => ?turnedDown⟩
  case sent =>
    refine ⟨finite_sent hw p, p.map (received write), ofWire_sent_eq hp write,
      ⟨hp.dates, hp.symbols⟩, ⟨rfl, rfl⟩, fun row hr col hc => ?_⟩
    have hcell : (p.map (received write)).cell row col = received write (p.cell row col) :=
      cell_remap _ hr hc
    rw [hcell]
    exact ⟨received_eq_self hw, isNaN_received hw⟩
  case again =>
    obtain ⟨fits, hd, hs, -⟩ := ofWire_eq_ok.mp h
    exact ⟨⟨hd ▸ fits.dates, hs ▸ fits.symbols⟩, hd, hs, fun _ _ _ _ => cell_ofWire h,
      ofWire_sent_of_ofWire hw h⟩
  case turnedDown => exact ⟨exists_ofWire_iff, fun e => ofRows_error⟩

/-- Three securities on one day: one with a price, one with an infinite one, one without. -/
def gaps : Panel where
  dates := [{ year := 2019, month := 7, day := 15 }]
  symbols := ["A", "B", "C"]
  values := #[5, 1 / 0, Cell.missing]
  size_eq := rfl

/-- A day for which no cells are sent. -/
def noCells : Wire := ⟨[{ year := 2019, month := 7, day := 15 }], ["A"], [[]]⟩

/-- The price is kept, the other two cells are missing, and sent once more they stay so; a row
without cells is too short for one security. -/
theorem ofWire_sent_gaps : gaps.Valid ∧
    (∃ q, ofWire gaps.toWire = .ok q ∧ q.cell 0 0 = 5 ∧ (q.cell 0 1).isNaN ∧
      (q.cell 0 2).isNaN ∧ ofWire q.toWire = .ok q) ∧ ∃ e, ofWire noCells = .error e := by
  have hvalid : gaps.Valid := ⟨by decide, by decide⟩
  obtain ⟨sent, again, turnedDown⟩ := ofWire_sent writes_jsonNumber?
  refine ⟨hvalid, ?_, ?_⟩
  · obtain ⟨hfinite, q, hq, -, -, hcells⟩ := sent gaps hvalid
    exact ⟨q, hq, (hcells 0 (by decide) 0 (by decide)).1 rfl,
      (hcells 0 (by decide) 1 (by decide)).2.mpr (.inr (by decide)),
      (hcells 0 (by decide) 2 (by decide)).2.mpr (.inl Cell.isNaN_missing),
      (again _ q hq).2.2.2.2 hfinite⟩
  · cases h : ofWire noCells with
    | error e => exact ⟨e, rfl⟩
    | ok q =>
      have fits := (turnedDown noCells).1.mp ⟨q, h⟩
      exact absurd (fits.widths [] (by simp [noCells])) (by simp [noCells])

end Panel

end PanelCalc
