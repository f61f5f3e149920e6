import Mathlib.Data.Fintype.Perm
import Mathlib.Data.List.FinRange
import PanelCalc.Proofs.Panel.Aligning
import PanelCalc.Proofs.Panel.Cells
import PanelCalc.Proofs.Panel.Ranks

/-! # Panels by names of securities

One panel may have its securities in another order than another one and still
hold the same cells for each of them. Reading by name, aligning and reordering
make no difference between the two, and neither does what is computed from
histories or from whole rows without regard to their order. -/
namespace PanelCalc.Panel

variable {p q r p' q' : Panel}

/-- No security stands in two columns. -/
theorem col_unique (hn : p.symbols.Nodup) {col col' : Nat} {symbol : String}
    (h : p.symbols[col]? = some symbol) (h' : p.symbols[col']? = some symbol) : col = col' :=
  (List.getElem?_inj (lt_cols h) hn).mp (h.trans h'.symm)

/-- Two panels on the same dates with the same cells for the securities that both have. -/
structure Coincide (p q : Panel) : Prop where
  dates : p.dates = q.dates
  cells : ∀ {row col col' symbol}, p.symbols[col]? = some symbol → q.symbols[col']? = some symbol →
    p.cell row col = q.cell row col'

namespace Coincide

theorem rows (h : p.Coincide q) : p.rows = q.rows := congrArg List.length h.dates

/-- Below the last row there is nothing to compare. -/
theorem of_cells (dates : p.dates = q.dates)
    (cells : ∀ (row col col' : Nat) (symbol : String), row < p.rows →
      p.symbols[col]? = some symbol → q.symbols[col']? = some symbol →
        p.cell row col = q.cell row col') : p.Coincide q := by
  refine ⟨dates, fun {row} _ _ _ hs hs' => ?_⟩
  have hrows : p.rows = q.rows := congrArg List.length dates
  by_cases hr : row < p.rows
  · exact cells _ _ _ _ hr hs hs'
  · rw [cell_of_rows_le (Nat.le_of_not_lt hr), cell_of_rows_le (hrows ▸ Nat.le_of_not_lt hr)]

theorem symm (h : p.Coincide q) : q.Coincide p :=
  ⟨h.dates.symm, fun hs hs' => (h.cells hs' hs).symm⟩

theorem refl (hn : p.symbols.Nodup) : p.Coincide p := by
  refine ⟨rfl, fun hs hs' => ?_⟩
  rw [col_unique hn hs hs']

/-- A panel between two others must have the securities of both. -/
theorem trans (h : p.Coincide q) (h' : q.Coincide r)
    (between : ∀ symbol, symbol ∈ p.symbols → symbol ∈ r.symbols → symbol ∈ q.symbols) :
    p.Coincide r := by
  refine ⟨h.dates.trans h'.dates, fun hs hs' => ?_⟩
  have hq := between _ (List.mem_of_getElem? hs) (List.mem_of_getElem? hs')
  obtain ⟨col, hcol⟩ := List.getElem?_of_mem hq
  rw [h.cells hs hcol, h'.cells hcol hs']

theorem remap (h : p.Coincide q) {f g : Nat → Nat → Float}
    (hf : ∀ row col col' symbol, row < p.rows → p.symbols[col]? = some symbol →
      q.symbols[col']? = some symbol → f row col = g row col') :
    (p.remap f).Coincide (q.remap g) := by
  refine of_cells h.dates ?_
  intro row col col' symbol (hr : row < p.rows) (hs : p.symbols[col]? = some symbol)
    (hs' : q.symbols[col']? = some symbol)
  rw [cell_remap f hr (lt_cols hs), cell_remap g (h.rows ▸ hr) (lt_cols hs')]
  exact hf row col col' symbol hr hs hs'

theorem colCells (h : p.Coincide q) {col col' : Nat} {symbol : String}
    (hs : p.symbols[col]? = some symbol) (hs' : q.symbols[col']? = some symbol) :
    p.colCells col = q.colCells col' := by
  rw [Panel.colCells, Panel.colCells, ← h.rows, List.map_inj_left]
  exact fun row _ => h.cells hs hs'

theorem mapColumns (h : p.Coincide q) {f g : Nat → List Float → List Float}
    (hf : ∀ col col' symbol, p.symbols[col]? = some symbol → q.symbols[col']? = some symbol →
      f col (p.colCells col) = g col' (q.colCells col')) :
    (p.mapColumns f).Coincide (q.mapColumns g) := by
  refine of_cells h.dates ?_
  intro row col col' symbol (hr : row < p.rows) (hs : p.symbols[col]? = some symbol)
    (hs' : q.symbols[col']? = some symbol)
  rw [cell_mapColumns f hr (lt_cols hs), cell_mapColumns g (h.rows ▸ hr) (lt_cols hs'),
    hf col col' symbol hs hs']

/-- On any day the latest rows of a security are the same. -/
theorem align (h : p.Coincide q) {announcements : Announcements} {days : List Date}
    (hp : p.align announcements days = .ok p') (hq : q.align announcements days = .ok q') :
    p'.Coincide q' := by
  obtain ⟨-, hpd, hps, hpcell⟩ := align_ok hp
  obtain ⟨-, hqd, hqs, hqcell⟩ := align_ok hq
  refine of_cells (hpd.trans hqd.symm) ?_
  intro row col col' symbol hrow hs hs'
  rw [hps] at hs
  rw [hqs] at hs'
  rw [Panel.rows, hpd] at hrow
  obtain ⟨column, hcolumn, hcell⟩ := hpcell row col _ symbol (List.getElem?_eq_getElem hrow) hs
  obtain ⟨column', hcolumn', hcell'⟩ := hqcell row col' _ symbol (List.getElem?_eq_getElem hrow) hs'
  cases hcolumn.symm.trans hcolumn'
  rw [hcell, hcell', latestCell, latestCell]
  split
  · exact h.cells hs hs'
  · rfl

end Coincide

/-- As many different names as a panel has, all of them its own, are all that it has. -/
theorem perm_of_reorder {order : List String} (h : p.reorder order = .ok q) (hn : order.Nodup) :
    order.Perm p.symbols := by
  obtain ⟨hl, hm⟩ := reorder_ok_iff.mp ⟨q, h⟩
  exact (hn.subperm hm).perm_of_length_le hl.ge

/-- Two panels that hold the same cells for the same securities, in whatever order these are. -/
structure Rearranged (p q : Panel) : Prop where
  dates : p.dates = q.dates
  symbols : p.symbols.Perm q.symbols
  nodup : p.symbols.Nodup
  cells : ∀ {row col col' symbol}, p.symbols[col]? = some symbol → q.symbols[col']? = some symbol →
    p.cell row col = q.cell row col'

theorem Coincide.rearranged (h : p.Coincide q) (symbols : p.symbols.Perm q.symbols)
    (nodup : p.symbols.Nodup) : p.Rearranged q :=
  ⟨h.dates, symbols, nodup, h.cells⟩

namespace Rearranged

theorem coincide (h : p.Rearranged q) : p.Coincide q := ⟨h.dates, h.cells⟩

theorem rows (h : p.Rearranged q) : p.rows = q.rows := h.coincide.rows

theorem symm (h : p.Rearranged q) : q.Rearranged p :=
  h.coincide.symm.rearranged h.symbols.symm (h.symbols.nodup_iff.mp h.nodup)

theorem refl (hn : p.symbols.Nodup) : p.Rearranged p := (Coincide.refl hn).rearranged (.refl _) hn

theorem trans (h : p.Rearranged q) (h' : q.Rearranged r) : p.Rearranged r :=
  (h.coincide.trans h'.coincide fun _ hp _ => h.symbols.mem_iff.mp hp).rearranged
    (h.symbols.trans h'.symbols) h.nodup

/-! ## Computed panels -/

theorem remap (h : p.Rearranged q) {f g : Nat → Nat → Float}
    (hf : ∀ row col col' symbol, row < p.rows → p.symbols[col]? = some symbol →
      q.symbols[col']? = some symbol → f row col = g row col') :
    (p.remap f).Rearranged (q.remap g) :=
  (h.coincide.remap hf).rearranged h.symbols h.nodup

theorem mapColumns (h : p.Rearranged q) {f g : Nat → List Float → List Float}
    (hf : ∀ col col' symbol, p.symbols[col]? = some symbol → q.symbols[col']? = some symbol →
      f col (p.colCells col) = g col' (q.colCells col')) :
    (p.mapColumns f).Rearranged (q.mapColumns g) :=
  (h.coincide.mapColumns hf).rearranged h.symbols h.nodup

/-- The cells of a row in two panels on one index, column by column. -/
theorem getElem?_zip_rowCells (hs : p'.symbols = p.symbols) {row col : Nat} (hc : col < p.cols) :
    ((p.rowCells row).zip (p'.rowCells row))[col]? = some (p.cell row col, p'.cell row col) := by
  have hcols : p'.cols = p.cols := congrArg List.length hs
  rw [rowCells, rowCells, hcols, List.zip_map', List.getElem?_map, List.getElem?_range hc,
    Option.map_some]

/-- The same cells, security by security. -/
theorem zip_rowCells_eq (hn : p.symbols.Nodup) (hs : p'.symbols = p.symbols) (row : Nat) :
    (p.rowCells row).zip (p'.rowCells row) = p.symbols.map fun symbol =>
      (p.cell row (p.symbols.idxOf symbol), p'.cell row (p.symbols.idxOf symbol)) := by
  have hcols : p'.cols = p.cols := congrArg List.length hs
  rw [rowCells, rowCells, hcols, List.zip_map']
  refine List.ext_getElem (by simp [Panel.cols]) fun col hc hc' => ?_
  rw [List.length_map] at hc'
  simp [hn.idxOf_getElem col hc']

/-- Rows hold the same cells, in whatever order. -/
theorem zip_rowCells (h : p.Rearranged q) (h' : p'.Rearranged q') (hs : p'.symbols = p.symbols)
    (hs' : q'.symbols = q.symbols) (row : Nat) :
    ((p.rowCells row).zip (p'.rowCells row)).Perm ((q.rowCells row).zip (q'.rowCells row)) := by
  rw [zip_rowCells_eq h.nodup hs, zip_rowCells_eq h.symm.nodup hs']
  refine (h.symbols.map _).trans (List.Perm.of_eq (List.map_congr_left fun symbol hq => ?_))
  have hp := h.symbols.mem_iff.mpr hq
  have hcol : p.symbols[p.symbols.idxOf symbol]? = some symbol := List.getElem?_idxOf hp
  have hcol' : q.symbols[q.symbols.idxOf symbol]? = some symbol := List.getElem?_idxOf hq
  have hcell : p.cell row _ = q.cell row _ := h.cells hcol hcol'
  have hcell' : p'.cell row _ = q'.cell row _ := h'.cells (by rwa [hs]) (by rwa [hs'])
  rw [hcell, hcell']

/-- Ranks go with the securities: those of `p` by the entries of `p'`, and so for `q`. -/
theorem mapRows_rankBy (h : p.Rearranged q) (h' : p'.Rearranged q') (hs : p'.symbols = p.symbols)
    (hs' : q'.symbols = q.symbols) {f g : Nat → List Float → List Float}
    {chosen : Float → Float → Bool}
    (hf : ∀ row, f row (p.rowCells row) = ((p.rowCells row).zip (p'.rowCells row)).map
      (Ranking.rankBy chosen ((p.rowCells row).zip (p'.rowCells row))))
    (hg : ∀ row, g row (q.rowCells row) = ((q.rowCells row).zip (q'.rowCells row)).map
      (Ranking.rankBy chosen ((q.rowCells row).zip (q'.rowCells row)))) :
    (p.mapRows f).Rearranged (q.mapRows g) := by
  suffices (p.mapRows f).Coincide (q.mapRows g) from this.rearranged h.symbols h.nodup
  refine Coincide.of_cells h.dates ?_
  intro row col col' symbol (hr : row < p.rows) (hcol : p.symbols[col]? = some symbol)
    (hcol' : q.symbols[col']? = some symbol)
  have hc : col < p.cols := lt_cols hcol
  have hc' : col' < q.cols := lt_cols hcol'
  have hcell : p.cell row _ = q.cell row _ := h.cells hcol hcol'
  have hcell' : p'.cell row _ = q'.cell row _ := h'.cells (by rwa [hs]) (by rwa [hs'])
  rw [cell_mapRows f hr hc, cell_mapRows g (h.rows ▸ hr) hc', hf, hg, List.getElem?_map,
    List.getElem?_map, getElem?_zip_rowCells hs hc, getElem?_zip_rowCells hs' hc', hcell, hcell',
    Option.map_some, Option.map_some, Ranking.rankBy_perm (h.zip_rowCells h' hs hs' row)]

/-! ## Aligning and reordering -/

theorem align (h : p.Rearranged q) (announcements : Announcements) (days : List Date) :
    Follows False Rearranged (p.align announcements days) (q.align announcements days) := by
  refine .of_lenient fun x hx => ?_
  obtain ⟨hd, hr, hc⟩ := align_ok_iff.mp ⟨x, hx⟩
  obtain ⟨y, hy⟩ : ∃ y, q.align announcements days = .ok y :=
    align_ok_iff.mpr ⟨hd, h.rows ▸ hr, fun symbol hs => hc symbol (h.symbols.mem_iff.mpr hs)⟩
  obtain ⟨-, -, hxs, -⟩ := align_ok hx
  obtain ⟨-, -, hys, -⟩ := align_ok hy
  exact ⟨y, hy, (h.coincide.align hx hy).rearranged (hxs ▸ hys ▸ h.symbols) (hxs ▸ h.nodup)⟩

/-- A panel that has been put in another order. -/
theorem of_reorder {order : List String} (hn : p.symbols.Nodup) (ho : order.Nodup)
    (h : p.reorder order = .ok q) : p.Rearranged q := by
  obtain ⟨hd, hs, hcell⟩ := reorder_ok h
  have hp : order.Perm p.symbols := perm_of_reorder h ho
  refine (Coincide.of_cells hd.symm ?_).rearranged (hs ▸ hp.symm) hn
  intro row col col' symbol hr hcol hcol'
  obtain ⟨found, hf, hc⟩ := hcell row col' symbol hr (hs ▸ hcol')
  rw [hc]
  rw [col_unique hn hcol (getElem?_of_symbolIndex? hf)]

theorem of_inOrder {order : List String} (hn : p.symbols.Nodup) (ho : order.Nodup)
    (h : Alignment.inOrder order p = .ok q) : p.Rearranged q ∧ q.symbols = order := by
  unfold Alignment.inOrder at h
  split at h
  · cases h
    exact ⟨refl hn, ‹_›⟩
  · exact ⟨of_reorder hn ho h, (reorder_ok h).2.1⟩

/-- Any order of the securities can be had. -/
theorem exists_inOrder {order : List String} (h : order.Perm p.symbols) :
    ∃ q, Alignment.inOrder order p = .ok q := by
  unfold Alignment.inOrder
  split
  · exact ⟨p, rfl⟩
  · exact reorder_ok_iff.mpr ⟨h.length_eq, fun symbol => h.mem_iff.mp⟩

theorem inOrder (h : p.Rearranged q) {order order' : List String} (ho : order.Perm order')
    (hn : order.Nodup) : Follows False Rearranged (Alignment.inOrder order p)
      (Alignment.inOrder order' q) := by
  refine .of_lenient fun x hx => ?_
  obtain ⟨hpx, rfl⟩ := of_inOrder h.nodup hn hx
  obtain ⟨y, hy⟩ := exists_inOrder (ho.symm.trans (hpx.symbols.symm.trans h.symbols))
  exact ⟨y, hy, hpx.symm.trans (h.trans (of_inOrder h.symm.nodup (ho.nodup_iff.mp hn) hy).1)⟩

end Rearranged

/-! ## What can be read -/

/-- Two panels with the same dates, the same securities and the same cell under every date and
security. -/
structure ReadsAs (p q : Panel) : Prop where
  dates : p.dates = q.dates
  symbols : ∀ symbol, symbol ∈ p.symbols ↔ symbol ∈ q.symbols
  get? : ∀ date symbol, p.get? date symbol = q.get? date symbol

theorem Rearranged.readsAs (h : p.Rearranged q) : p.ReadsAs q := by
  refine ⟨h.dates, fun symbol => h.symbols.mem_iff, fun date symbol => ?_⟩
  rw [get?, get?, dateIndex?, dateIndex?, h.dates]
  cases q.dates.idxOf? date with
  | none => rfl
  | some row =>
    cases hp : p.symbolIndex? symbol with
    | none =>
      have hn := mt h.symbols.mem_iff.mpr (List.idxOf?_eq_none_iff.mp hp)
      rw [show q.symbolIndex? symbol = none from List.idxOf?_eq_none_iff.mpr hn]
      rfl
    | some col =>
      cases hq : q.symbolIndex? symbol with
      | none =>
        have hn := mt h.symbols.mem_iff.mp (List.idxOf?_eq_none_iff.mp hq)
        exact absurd (List.mem_of_getElem? (getElem?_of_symbolIndex? hp)) hn
      | some col' =>
        have hcell : p.cell row col = q.cell row col' :=
          h.cells (getElem?_of_symbolIndex? hp) (getElem?_of_symbolIndex? hq)
        simp [valueAt?, hcell, h.rows, lt_cols_of_symbolIndex? hp, lt_cols_of_symbolIndex? hq]

/-- The panel with its columns permuted. -/
def permute (p : Panel) (σ : Equiv.Perm (Fin p.cols)) : Panel :=
  tabulate p.dates (List.ofFn fun col => p.symbols.get (σ col)) fun row col =>
    if h : col < p.cols then p.cell row (σ ⟨col, h⟩) else Cell.missing

theorem rearranged_permute (hn : p.symbols.Nodup) (σ : Equiv.Perm (Fin p.cols)) :
    p.Rearranged (p.permute σ) := by
  have symbols : (p.permute σ).symbols.Perm p.symbols := by
    have h := Equiv.Perm.ofFn_comp_perm σ p.symbols.get
    exact h.trans (.of_eq (List.ofFn_get p.symbols))
  suffices p.Coincide (p.permute σ) from this.rearranged symbols.symm hn
  refine Coincide.of_cells rfl ?_
  intro row col col' symbol hr hs hs'
  have hc : col' < p.cols := by
    have := lt_cols hs'
    rwa [Panel.cols, symbols.length_eq] at this
  have hσ : p.symbols[(σ ⟨col', hc⟩).val]? = some symbol := by
    rw [permute, symbols_tabulate, List.getElem?_ofFn, dif_pos hc] at hs'
    rw [← hs']
    exact List.getElem?_eq_getElem _
  rw [permute, cell_tabulate _ hr (by rwa [List.length_ofFn]), dif_pos hc, col_unique hn hs hσ]

end PanelCalc.Panel
