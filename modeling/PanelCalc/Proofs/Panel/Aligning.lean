import PanelCalc.Alignment
import PanelCalc.Proofs.Evaluation.Answers

/-! # What aligning and reordering give

Whether a panel can be aligned or reordered is a matter of its dates and
securities alone. Where it can, every cell of the result is a cell of the panel
or missing, and the announcements alone say which. -/
namespace PanelCalc

namespace Announcements

/-- What supersedes an announcement has been announced by the day. -/
theorem supersede_eq_some {day : Date} {known : Option (Date × Nat)} {announced : Option Date}
    {row : Nat} {found : Date × Nat} (h : supersede day known announced row = some found) :
    known = some found ∨ announced = some found.1 ∧ row = found.2 ∧ found.1 ≤ day := by
  cases announced with
  | none => exact .inl h
  | some date =>
    cases known with
    | none =>
      simp only [supersede] at h
      split at h
      · rename_i hle
        cases h
        exact .inr ⟨rfl, rfl, hle⟩
      · cases h
    | some earlier =>
      simp only [supersede] at h
      split at h
      · rename_i hle
        cases h
        exact .inr ⟨rfl, rfl, hle.1⟩
      · exact .inl h

/-- A row that shows on a day has been announced by then. -/
theorem announced_of_latestRow? {column : List (Option Date)} {day : Date} {row : Nat}
    (h : latestRow? column day = some row) :
    ∃ date, column[row]? = some (some date) ∧ date ≤ day := by
  have keep : ∀ (entries : List (Option Date × Nat)) (known : Option (Date × Nat)) found,
      (∀ entry ∈ entries, column[entry.2]? = some entry.1) →
      entries.foldl (fun known entry => supersede day known entry.1 entry.2) known = some found →
        known = some found ∨ column[found.2]? = some (some found.1) ∧ found.1 ≤ day := by
    intro entries
    induction entries with
    | nil => exact fun _ _ _ hf => .inl hf
    | cons entry entries ih =>
      intro known found he hf
      rcases ih _ found (fun e hm => he e (.tail _ hm)) hf with hs | hs
      · rcases supersede_eq_some hs with hk | ⟨ha, hr, hle⟩
        · exact .inl hk
        · have := he entry (.head _)
          rw [ha, hr] at this
          exact .inr ⟨this, hle⟩
      · exact .inr hs
  obtain ⟨⟨date, shown⟩, hf, rfl⟩ := Option.map_eq_some_iff.mp h
  have entries : ∀ entry ∈ column.zipIdx, column[entry.2]? = some entry.1 :=
    fun entry he => List.mem_zipIdx_iff_getElem?.mp he
  rcases keep column.zipIdx none (date, shown) entries hf with hk | hk
  · cases hk
  · exact ⟨date, hk⟩

/-- The dates of a security, one by one and as a column. -/
theorem announcedAt?_of_column? {a : Announcements} {symbol : String} {column : List (Option Date)}
    {row : Nat} {date : Date} (hc : a.column? symbol = some column)
    (h : column[row]? = some (some date)) : a.announcedAt? row symbol = some date := by
  obtain ⟨col, hcol, rfl⟩ := Option.map_eq_some_iff.mp hc
  rw [List.getElem?_map] at h
  obtain ⟨dates, hd, hdate⟩ := Option.map_eq_some_iff.mp h
  have hget : dates[col]? = some (some date) := by
    rw [List.getD_eq_getElem?_getD] at hdate
    cases hg : dates[col]? with
    | none => rw [hg] at hdate; cases hdate
    | some found => rw [hg] at hdate; exact congrArg some hdate
  simp [announcedAt?, hcol, hd, hget]

end Announcements

namespace Panel

variable {p q : Panel} {announcements : Announcements} {days : List Date} {order : List String}

/-- The cell that shows on a day. -/
def latestCell (p : Panel) (column : List (Option Date)) (day : Date) (col : Nat) : Float :=
  match Announcements.latestRow? column day with
  | some row => p.cell row col
  | none => Cell.missing

theorem align_ok (h : p.align announcements days = .ok q) :
    p.rows = announcements.rows.length ∧ q.dates = days ∧ q.symbols = p.symbols ∧
      ∀ row col day symbol, days[row]? = some day → p.symbols[col]? = some symbol →
        ∃ column, announcements.column? symbol = some column ∧
          q.cell row col = p.latestCell column day col := by
  unfold align at h
  obtain ⟨_, hd, h⟩ := bind_ok h
  split at h
  · cases h
  rename_i hr
  obtain ⟨columns, hm, h⟩ := bind_ok h
  cases h
  refine ⟨by simpa using hr, rfl, rfl, fun row col day symbol hday hsymbol => ?_⟩
  obtain ⟨shown, hs, hc⟩ := getElem?_of_mapM hm hsymbol
  split at hs
  · rename_i column hcolumn
    cases hs
    refine ⟨column, hcolumn, ?_⟩
    have hrow : (columns.getD col []).getD row none = Announcements.latestRow? column day := by
      simp [List.getD_eq_getElem?_getD, hc, hday]
    rw [cell_tabulate _ (List.getElem?_eq_some_iff.mp hday).1
      (List.getElem?_eq_some_iff.mp hsymbol).1, hrow]
    unfold latestCell
    cases Announcements.latestRow? column day with
    | some shown => rfl
    | none => rfl
  · cases hs

/-- When a panel can be aligned. -/
theorem align_ok_iff : (∃ q, p.align announcements days = .ok q) ↔
    checkDates days = .ok () ∧ p.rows = announcements.rows.length ∧
      ∀ symbol ∈ p.symbols, ∃ column, announcements.column? symbol = some column := by
  unfold align
  rw [exists_bind_ok]
  constructor
  · rintro ⟨_, hd, h⟩
    split at h
    · obtain ⟨_, h⟩ := h
      cases h
    rename_i hr
    obtain ⟨columns, hm, -⟩ := exists_bind_ok.mp h
    refine ⟨hd, not_not.mp hr, fun symbol hs => ?_⟩
    obtain ⟨shown, hshown⟩ := mapM_ok_iff.mp ⟨columns, hm⟩ symbol hs
    split at hshown
    · exact ⟨_, ‹_›⟩
    · cases hshown
  · rintro ⟨hd, hr, hs⟩
    refine ⟨(), hd, ?_⟩
    rw [if_neg (not_not.mpr hr)]
    refine exists_bind_ok.mpr ((mapM_ok_iff.mpr ?_).imp fun columns hm => ⟨hm, _, rfl⟩)
    intro symbol hsymbol
    obtain ⟨column, hc⟩ := hs symbol hsymbol
    rw [hc]
    exact ⟨_, rfl⟩

theorem align_alike (hd : p.dates = q.dates) (hs : p.symbols = q.symbols) :
    Alike (fun _ _ => True) (p.align announcements days) (q.align announcements days) := by
  have hr : p.rows = q.rows := congrArg List.length hd
  unfold align
  refine (Follows.of_eq rfl).bind fun _ _ _ => ?_
  by_cases h : p.rows ≠ announcements.rows.length
  · rw [if_pos h, if_pos (hr ▸ h), hr]
    exact .error
  · rw [if_neg h, if_neg (hr ▸ h), hs]
    exact (Follows.of_eq rfl).bind fun _ _ _ => .ok trivial

theorem reorder_ok (h : p.reorder order = .ok q) :
    q.dates = p.dates ∧ q.symbols = order ∧ ∀ row col symbol, row < p.rows →
      order[col]? = some symbol →
        ∃ col', p.symbolIndex? symbol = some col' ∧ q.cell row col = p.cell row col' := by
  unfold reorder at h
  split at h
  · cases h
  obtain ⟨columns, hm, h⟩ := bind_ok h
  cases h
  refine ⟨rfl, rfl, fun row col symbol hr hsymbol => ?_⟩
  obtain ⟨col', hs, hc⟩ := getElem?_of_mapM hm hsymbol
  split at hs
  · rename_i found hfound
    cases hs
    refine ⟨col', hfound, ?_⟩
    rw [cell_tabulate _ hr (List.getElem?_eq_some_iff.mp hsymbol).1, List.getD_eq_getElem?_getD, hc]
    rfl
  · cases hs

/-- The security of a column is found where it stands. -/
theorem getElem?_of_symbolIndex? {symbol : String} {col : Nat}
    (h : p.symbolIndex? symbol = some col) : p.symbols[col]? = some symbol := by
  obtain ⟨hc, hs, -⟩ := List.idxOf?_eq_some_iff.mp h
  simp [hc, hs]

theorem lt_cols_of_symbolIndex? {symbol : String} {col : Nat}
    (h : p.symbolIndex? symbol = some col) : col < p.cols :=
  (List.getElem?_eq_some_iff.mp (getElem?_of_symbolIndex? h)).1

/-- When the securities of a panel can be put in a given order. -/
theorem reorder_ok_iff : (∃ q, p.reorder order = .ok q) ↔
    order.length = p.cols ∧ ∀ symbol ∈ order, symbol ∈ p.symbols := by
  unfold reorder columnsOf
  constructor
  · rintro ⟨q, h⟩
    split at h
    · cases h
    rename_i hl
    obtain ⟨columns, hm, -⟩ := bind_ok h
    refine ⟨not_not.mp hl, fun symbol hs => ?_⟩
    obtain ⟨col, hcol⟩ := mapM_ok_iff.mp ⟨columns, hm⟩ symbol hs
    split at hcol
    · exact List.mem_of_getElem? (getElem?_of_symbolIndex? ‹_›)
    · cases hcol
  · rintro ⟨hl, hs⟩
    rw [if_neg (not_not.mpr hl)]
    refine exists_bind_ok.mpr ((mapM_ok_iff.mpr ?_).imp fun columns hm => ⟨hm, _, rfl⟩)
    intro symbol hsymbol
    cases hi : p.symbolIndex? symbol with
    | none => exact absurd (hs symbol hsymbol) (List.idxOf?_eq_none_iff.mp hi)
    | some col => exact ⟨col, rfl⟩

theorem reorder_alike (hs : p.symbols = q.symbols) :
    Alike (fun _ _ => True) (p.reorder order) (q.reorder order) := by
  have hc : p.cols = q.cols := congrArg List.length hs
  unfold reorder columnsOf symbolIndex?
  by_cases h : order.length ≠ p.cols
  · rw [if_pos h, if_pos (hc ▸ h), hs]
    exact .error
  · rw [if_neg h, if_neg (hc ▸ h), hs]
    exact (Follows.of_eq rfl).bind fun _ _ _ => .ok trivial

/-- A panel with the dates and the securities of another one, in the same order. -/
structure IndexedAs (p reference : Panel) : Prop where
  dates : p.dates = reference.dates
  symbols : p.symbols = reference.symbols

end Panel

namespace Alignment

open Panel

variable {alignment : Alignment} {p q reference : Panel}

/-- What bringing a panel onto the trading dates can do: nothing, or align it. -/
theorem rebase_eq_ok : alignment.rebase p = .ok q ↔
    (∀ c, alignment.calendar? = some c → p.dates = c.tradeDates) ∧ q = p ∨
      ∃ c, alignment.calendar? = some c ∧ p.dates ≠ c.tradeDates ∧
        p.align c.announcements c.tradeDates = .ok q := by
  unfold rebase
  cases alignment.calendar? with
  | none => simp [eq_comm]
  | some c =>
    by_cases hd : p.dates = c.tradeDates
    · simp [hd, eq_comm]
    · simp [hd]

/-- A panel on the trading dates stays as it is. -/
theorem rebase_self (h : ∀ c, alignment.calendar? = some c → p.dates = c.tradeDates) :
    alignment.rebase p = .ok p :=
  rebase_eq_ok.mpr (.inl ⟨h, rfl⟩)

/-- What has been brought onto the trading dates is on them. -/
theorem rebase_ok {calendar : TradingCalendar} (hc : alignment.calendar? = some calendar)
    (h : alignment.rebase p = .ok q) : q.dates = calendar.tradeDates := by
  obtain ⟨hd, rfl⟩ | ⟨_, hc', -, h⟩ := rebase_eq_ok.mp h
  · exact hd calendar hc
  · cases hc.symm.trans hc'
    exact (align_ok h).2.1

/-- On the trading dates a panel has its securities as before. -/
theorem symbols_rebase (h : alignment.rebase p = .ok q) : q.symbols = p.symbols := by
  obtain ⟨-, rfl⟩ | ⟨_, -, -, h⟩ := rebase_eq_ok.mp h
  · rfl
  · exact (align_ok h).2.2.1

/-- Equally many dates without a difference are the same. -/
theorem eq_of_firstDifference? {ds es : List Date} (hl : es.length = ds.length)
    (h : firstDifference? ds es = none) : es = ds := by
  rw [firstDifference?, List.findIdx?_eq_none_iff] at h
  refine List.ext_getElem hl ?_
  intro i hi hj
  have hz : i < (ds.zip es).length := by
    rw [List.length_zip]
    omega
  have hm : (ds[i], es[i]) ∈ ds.zip es := by
    rw [← List.getElem_zip (h := hz)]
    exact List.getElem_mem hz
  have same : ds[i] = es[i] := by simpa using h _ hm
  exact same.symm

theorem conformDates_ok (h : alignment.conformDates reference p = .ok q) :
    q.dates = reference.dates := by
  unfold conformDates at h
  split at h
  · rename_i hr
    split at h
    · cases h
    · rename_i hf
      cases h
      exact eq_of_firstDifference? hr hf
  · split at h
    · cases h
    · split at h
      · cases h
      · exact (align_ok h).2.1

/-- What conforms to a panel has its index. -/
theorem conform_ok (h : alignment.conform reference p = .ok q) : q.IndexedAs reference := by
  unfold conform at h
  split at h
  · rename_i hi
    cases h
    simp only [sameIndex, Bool.and_eq_true, beq_iff_eq] at hi
    exact ⟨hi.1.symm, hi.2.symm⟩
  · obtain ⟨onDates, hd, h⟩ := bind_ok h
    split at h
    · rename_i hs
      cases h
      exact ⟨conformDates_ok hd, hs⟩
    · obtain ⟨had, has, -⟩ := reorder_ok h
      exact ⟨had.trans (conformDates_ok hd), has⟩

/-- Panels that have been reconciled are on one index. -/
theorem reconcile_ok {pair : Panel × Panel} (h : alignment.reconcile p q = .ok pair) :
    pair.2.IndexedAs pair.1 := by
  obtain ⟨left, -, h⟩ := bind_ok h
  obtain ⟨right, -, h⟩ := bind_ok h
  split at h
  · obtain ⟨conformed, hc, h⟩ := bind_ok h
    cases h
    exact ⟨(conform_ok hc).dates.symm, (conform_ok hc).symbols.symm⟩
  · obtain ⟨conformed, hc, h⟩ := bind_ok h
    cases h
    exact conform_ok hc

/-- The panel with its securities in a given order, as it is if they stand so already. -/
def inOrder (order : List String) (p : Panel) : Except ShapeError Panel :=
  if p.symbols = order then .ok p else p.reorder order

/-- A panel on the same dates stays as it is. -/
theorem conformDates_self (h : p.dates = reference.dates) :
    alignment.conformDates reference p = .ok p := by
  have same : firstDifference? reference.dates p.dates = none := by
    rw [h, firstDifference?, List.findIdx?_eq_none_iff]
    intro pair hp
    obtain ⟨i, hi, rfl⟩ := List.getElem_of_mem hp
    simp
  have hrows : p.rows = reference.rows := congrArg List.length h
  rw [conformDates, if_pos hrows, same]

/-- A panel on the same index stays as it is. -/
theorem conform_self (h : p.IndexedAs reference) : alignment.conform reference p = .ok p := by
  rw [conform, if_pos (by simp [sameIndex, h.dates, h.symbols])]
  rfl

/-- A panel on the same index is on the same dates and has its securities in order. -/
theorem conform_eq : alignment.conform reference p =
    alignment.conformDates reference p >>= inOrder reference.symbols := by
  unfold conform
  by_cases hi : reference.sameIndex p
  · rw [if_pos hi]
    simp only [sameIndex, Bool.and_eq_true, beq_iff_eq] at hi
    rw [conformDates_self hi.1.symm]
    exact (if_pos hi.2.symm).symm
  · rw [if_neg hi]
    rfl

/-! ## Two panels on the same dates -/

section Follows

variable {strict : Prop} {R : Panel → Panel → Prop} {a' : Alignment} {reference' : Panel}

theorem rebase_follows (h : R p q) (hd : p.dates = q.dates)
    (aligned : ∀ c, alignment.calendar? = some c → p.dates ≠ c.tradeDates →
      Follows strict R (p.align c.announcements c.tradeDates)
        (q.align c.announcements c.tradeDates)) :
    Follows strict R (alignment.rebase p) (alignment.rebase q) := by
  unfold rebase
  cases hc : alignment.calendar? with
  | none => exact .ok h
  | some c =>
    by_cases ht : p.dates = c.tradeDates
    · simp only [ht, ← hd, if_true]
      exact .ok h
    · simp only [ht, ← hd, if_false]
      exact aligned c hc ht

theorem prepare_follows (h : R p q)
    (rebased : Follows strict R (alignment.rebase p) (alignment.rebase q)) :
    Follows strict R (alignment.prepare p) (alignment.prepare q) := by
  cases alignment with
  | always c => exact rebased
  | never => exact .ok h
  | whenNeeded c => exact .ok h

theorem conformDates_follows (h : R p q) (hd : p.dates = q.dates)
    (hr : reference.dates = reference'.dates)
    (aligned : ∀ c, alignment.calendar? = some c → p.rows < reference.rows →
      Follows strict R (p.align c.announcements reference.dates)
        (q.align c.announcements reference.dates)) :
    Follows strict R (alignment.conformDates reference p)
      (alignment.conformDates reference' q) := by
  have hrows : p.rows = q.rows := congrArg List.length hd
  have hrows' : reference.rows = reference'.rows := congrArg List.length hr
  unfold conformDates
  rw [← hrows, ← hrows', ← hd, ← hr]
  by_cases hp : p.rows = reference.rows
  · rw [if_pos hp, if_pos hp]
    cases firstDifference? reference.dates p.dates with
    | some row => exact .error
    | none => exact .ok h
  · rw [if_neg hp, if_neg hp]
    cases hc : alignment.calendar? with
    | none => exact .error
    | some c =>
      by_cases hlt : reference.rows < p.rows
      · simp only [hlt, if_true]
        exact .error
      · simp only [hlt, if_false]
        exact aligned c hc (by omega)

theorem conform_follows
    (dates : Follows strict R (alignment.conformDates reference p) (a'.conformDates reference' q))
    (ordered : ∀ x y, R x y →
      Follows strict R (inOrder reference.symbols x) (inOrder reference'.symbols y)) :
    Follows strict R (alignment.conform reference p) (a'.conform reference' q) := by
  rw [conform_eq, conform_eq]
  exact dates.bind ordered

end Follows

end Alignment

end PanelCalc
