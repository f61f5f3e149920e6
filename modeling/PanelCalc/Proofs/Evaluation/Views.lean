import PanelCalc.Proofs.Evaluation.SideBySide
import PanelCalc.Proofs.Panel.Cells

/-! # Views of panels

A view says which cells may be looked at: what it shows of a history it shows
from the beginning on, and what it shows on the dates of an alignment it shows
where the announcements take it from. Panels that agree in a view do so after
every built-in operation, whatever they hold elsewhere. -/
namespace PanelCalc

/-- The cells that may be looked at, by the dates of a panel, a row and a security. -/
structure View (calendar : TradingCalendar) where
  sees : List Date → Nat → String → Prop
  /-- Earlier cells of a history can be seen too. -/
  earlier : ∀ {dates row before symbol}, sees dates row symbol → before ≤ row →
    sees dates before symbol
  /-- On a trading date all securities can be seen or none. -/
  level : ∀ {row symbol other}, sees calendar.tradeDates row symbol →
    sees calendar.tradeDates row other
  /-- What alignment shows can be seen where it comes from. -/
  aligned : ∀ {dates days row shown symbol column day},
    dates.length = calendar.announcements.rows.length → dates ≠ days →
    days = calendar.tradeDates ∨ dates.length < days.length →
    calendar.announcements.column? symbol = some column → days[row]? = some day →
    Announcements.latestRow? column day = some shown → sees days row symbol →
    sees dates shown symbol

variable {calendar : TradingCalendar} {V : View calendar}

namespace Panel

/-- Two panels with the same index that cannot be told apart in a view. -/
structure Agree (V : View calendar) (p q : Panel) : Prop where
  dates : p.dates = q.dates
  symbols : p.symbols = q.symbols
  cells : ∀ row col symbol, row < p.rows → p.symbols[col]? = some symbol →
    V.sees p.dates row symbol → p.cell row col = q.cell row col

variable {p q p' q' : Panel}

namespace Agree

theorem refl (p : Panel) : p.Agree V p := ⟨rfl, rfl, fun _ _ _ _ _ _ => rfl⟩

theorem rows (h : p.Agree V q) : p.rows = q.rows := congrArg List.length h.dates

theorem cols (h : p.Agree V q) : p.cols = q.cols := congrArg List.length h.symbols

/-- A panel computed cell by cell from cells that agree. -/
theorem remap (h : p.Agree V q) {f g : Nat → Nat → Float}
    (hf : ∀ row col symbol, row < p.rows → p.symbols[col]? = some symbol →
      V.sees p.dates row symbol → f row col = g row col) : (p.remap f).Agree V (q.remap g) := by
  refine ⟨h.dates, h.symbols, ?_⟩
  intro row col symbol (hr : row < p.rows) (hs : p.symbols[col]? = some symbol) hv
  rw [cell_remap f hr (lt_cols hs), cell_remap g (h.rows ▸ hr) (h.cols ▸ lt_cols hs)]
  exact hf row col symbol hr hs hv

/-- Histories agree up to a row that can be seen. -/
theorem take_colCells (h : p.Agree V q) {row col : Nat} {symbol : String} (hr : row < p.rows)
    (hs : p.symbols[col]? = some symbol) (hv : V.sees p.dates row symbol) :
    (p.colCells col).take (row + 1) = (q.colCells col).take (row + 1) := by
  rw [colCells, colCells, ← h.rows, ← List.map_take, ← List.map_take, List.map_inj_left]
  intro before hb
  rw [List.take_range, List.mem_range] at hb
  exact h.cells before col symbol (by omega) hs (V.earlier hv (by omega))

theorem length_colCells (h : p.Agree V q) (col col' : Nat) :
    (p.colCells col).length = (q.colCells col').length := by
  simp [colCells, h.rows]

theorem mapColumns (h : p.Agree V q) {f : List Float → List Float} (hf : Series.Causal f) :
    (p.mapColumns fun _ => f).Agree V (q.mapColumns fun _ => f) := by
  refine ⟨h.dates, h.symbols, ?_⟩
  intro row col symbol (hr : row < p.rows) (hs : p.symbols[col]? = some symbol) hv
  rw [cell_mapColumns _ hr (lt_cols hs), cell_mapColumns _ (h.rows ▸ hr) (h.cols ▸ lt_cols hs),
    hf _ _ _ (h.length_colCells col col) (h.take_colCells hr hs hv)]

theorem rollingPair (h : p.Agree V q) (h' : p'.Agree V q') (hd : p'.dates = p.dates)
    (hs' : p'.symbols = p.symbols) (n : Nat) (reduce : List Float → List Float → Float) :
    (p.mapColumns fun col xs => Series.rollingPair n reduce xs (p'.colCells col)).Agree V
      (q.mapColumns fun col xs => Series.rollingPair n reduce xs (q'.colCells col)) := by
  refine ⟨h.dates, h.symbols, ?_⟩
  intro row col symbol (hr : row < p.rows) (hs : p.symbols[col]? = some symbol) hv
  have hr' : row < p'.rows := by rwa [Panel.rows, hd]
  rw [cell_mapColumns _ hr (lt_cols hs), cell_mapColumns _ (h.rows ▸ hr) (h.cols ▸ lt_cols hs),
    Series.rollingPair_getElem?_congr n reduce (h.length_colCells col col)
      (h.take_colCells hr hs hv) (h'.length_colCells col col)
      (h'.take_colCells hr' (hs' ▸ hs) (hd ▸ hv))]

/-- On the trading dates, rows agree as a whole. -/
theorem rowCells (h : p.Agree V q) (hd : p.dates = calendar.tradeDates) {row : Nat}
    {symbol : String} (hr : row < p.rows) (hv : V.sees p.dates row symbol) : p.rowCells row = q.rowCells row := by
  rw [Panel.rowCells, Panel.rowCells, ← h.cols, List.map_inj_left]
  intro col hc
  rw [List.mem_range] at hc
  have hs : p.symbols[col]? = some p.symbols[col] := List.getElem?_eq_getElem hc
  refine h.cells row col _ hr hs ?_
  rw [hd] at hv ⊢
  exact V.level hv

theorem mapRows (h : p.Agree V q) (hd : p.dates = calendar.tradeDates)
    {f g : Nat → List Float → List Float}
    (hf : ∀ row symbol, row < p.rows → V.sees p.dates row symbol → f row = g row) :
    (p.mapRows f).Agree V (q.mapRows g) := by
  refine ⟨h.dates, h.symbols, ?_⟩
  intro row col symbol (hr : row < p.rows) (hs : p.symbols[col]? = some symbol) hv
  rw [cell_mapRows _ hr (lt_cols hs), cell_mapRows _ (h.rows ▸ hr) (h.cols ▸ lt_cols hs),
    hf row symbol hr hv, h.rowCells hd hr hv]

theorem align (h : p.Agree V q) {days : List Date} (hne : p.dates ≠ days)
    (hd : days = calendar.tradeDates ∨ p.rows < days.length) :
    Alike (Agree V) (p.align calendar.announcements days)
      (q.align calendar.announcements days) := by
  refine (align_alike h.dates h.symbols).of_ok ?_
  intro a b ha hb _
  obtain ⟨hrows, had, has, hacell⟩ := align_ok ha
  obtain ⟨-, hbd, hbs, hbcell⟩ := align_ok hb
  refine ⟨had.trans hbd.symm, has.trans (h.symbols.trans hbs.symm), ?_⟩
  intro row col symbol hr hs hv
  rw [has] at hs
  rw [had] at hv
  rw [Panel.rows, had] at hr
  obtain ⟨column, hcolumn, hcell⟩ := hacell row col _ symbol (List.getElem?_eq_getElem hr) hs
  obtain ⟨column', hcolumn', hcell'⟩ :=
    hbcell row col _ symbol (List.getElem?_eq_getElem hr) (h.symbols ▸ hs)
  rw [hcolumn, Option.some.injEq] at hcolumn'
  subst hcolumn'
  rw [hcell, hcell', latestCell, latestCell]
  cases hl : Announcements.latestRow? column days[row] with
  | none => rfl
  | some shown =>
    have seen := V.aligned hrows hne hd hcolumn (List.getElem?_eq_getElem hr) hl hv
    show p.cell shown col = q.cell shown col
    by_cases hlt : shown < p.rows
    · exact h.cells shown col symbol hlt hs seen
    · rw [cell_of_rows_le (Nat.le_of_not_lt hlt),
        cell_of_rows_le (h.rows ▸ Nat.le_of_not_lt hlt)]

theorem reorder (h : p.Agree V q) (order : List String) :
    Alike (Agree V) (p.reorder order) (q.reorder order) := by
  refine (reorder_alike h.symbols).of_ok ?_
  intro a b ha hb _
  obtain ⟨had, has, hacell⟩ := reorder_ok ha
  obtain ⟨hbd, hbs, hbcell⟩ := reorder_ok hb
  refine ⟨had.trans (h.dates.trans hbd.symm), has.trans hbs.symm, ?_⟩
  intro row col symbol hr hs hv
  rw [has] at hs
  rw [had] at hv
  rw [Panel.rows, had] at hr
  obtain ⟨col', hcol, hcell⟩ := hacell row col symbol hr hs
  obtain ⟨col'', hcol', hcell'⟩ := hbcell row col symbol (h.rows ▸ hr) hs
  rw [symbolIndex?, ← h.symbols] at hcol'
  rw [symbolIndex?, hcol', Option.some.injEq] at hcol
  subst hcol
  rw [hcell, hcell']
  exact h.cells row _ symbol hr (getElem?_of_symbolIndex? hcol') hv

end Agree

end Panel

/-- What built-in functions make of a history looks back only. -/
theorem HistoryFunction.causal {allowed : Builtin → Prop} {f : List Float → List Float}
    (h : HistoryFunction allowed f) : Series.Causal f := by
  cases h with
  | rolling _ reduce => exact Series.causal_rolling _ reduce
  | shifted n f => exact Series.causal_shifted n f
  | countUpTo last _ => exact Series.causal_countUpTo last

/-- **A view is a simulation**: all that is built in keeps agreement in it. -/
theorem Builtin.keep_agree {alignment : Alignment} (ha : alignment.calendar? = some calendar) :
    Simulation True (fun _ => True) (Panel.Agree V) alignment alignment := by
  have rebase {p q : Panel} (h : p.Agree V q) :
      Alike (Panel.Agree V) (alignment.rebase p) (alignment.rebase q) := by
    refine Alignment.rebase_follows h h.dates fun c hc hne => ?_
    cases ha.symm.trans hc
    exact h.align hne (.inl rfl)
  refine {
    shorter := fun h h' => by rw [h.rows, h'.rows]
    prepare := fun h => Alignment.prepare_follows h (rebase h)
    conform := ?_
    rebase := fun _ _ h => rebase h
    cells := ?_
    histories := fun hf h => h.mapColumns hf.causal
    pairs := fun reduce _ h h' hi _ => h.rollingPair h' hi.dates hi.symbols _ reduce
    ranks := fun _ h hd _ => h.mapRows (hd _ ha) fun _ _ _ _ => rfl
    ranksBy := ?_ }
  · intro reference reference' p q hr h
    refine Alignment.conform_follows (Alignment.conformDates_follows h h.dates hr.dates ?_) ?_
    · intro c hc hlt
      cases ha.symm.trans hc
      refine h.align ?_ (.inr hlt)
      rintro hd
      rw [Panel.rows, hd] at hlt
      exact Nat.lt_irrefl _ hlt
    · intro x y hxy
      unfold Alignment.inOrder
      rw [← hxy.symbols, ← hr.symbols]
      split
      · exact .ok hxy
      · exact hxy.reorder _
  · intro p q xs ys f h hs
    refine h.remap fun row col symbol hrow hsymbol hv => ?_
    refine congrArg f (Operand.map_cell_congr hs fun p' q' hpq => ?_)
    refine hpq.related.cells row col symbol ?_ (hpq.left.symbols ▸ hsymbol) (hpq.left.dates ▸ hv)
    rwa [Panel.rows, hpq.left.dates]
  · intro f p q p' q' _ h hd _ h'
    refine h.mapRows (hd _ ha) fun row symbol hrow hv => ?_
    have hrows := h'.left.dates
    rw [h'.related.rowCells (hrows.trans (hd _ ha)) (by rwa [Panel.rows, hrows]) (hrows ▸ hv)]

end PanelCalc
