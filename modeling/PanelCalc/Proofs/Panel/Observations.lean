import PanelCalc.Proofs.Panel.Latest

/-! # What a panel shows on a day

Of a security a panel shows the latest observation that was announced by the day,
and nothing before the first one. Aligning to some days is reading off what is
shown on each of them, for every security under its own name. -/
namespace PanelCalc.Panel

open Announcements (IsLatest)

variable {p q : Panel} {a : Announcements} {days : List Date} {day : Date} {symbol : String}
  {row col : Nat} {x y : Float}

/-- The cell that a panel shows of a security on a day. -/
inductive Shows (p : Panel) (a : Announcements) (day : Date) (symbol : String) : Float → Prop
  /-- The observation in the row whose announcement stands last among those up to the day. -/
  | latest {date row x} : a.IsLatest symbol day date row →
    p.columnOf? symbol >>= (·[row]?) = some x → Shows p a day symbol x
  /-- Nothing, if none was announced by the day. -/
  | none : (∀ date row, a.announcedAt? row symbol = some date → ¬ date ≤ day) →
    Shows p a day symbol Cell.missing

theorem lt_length_of_announcedAt? {date : Date} (h : a.announcedAt? row symbol = some date) :
    row < a.rows.length := by
  obtain ⟨_, -, h⟩ := Option.bind_eq_some_iff.mp h
  obtain ⟨_, hrow, -⟩ := Option.bind_eq_some_iff.mp h
  exact (List.getElem?_eq_some_iff.mp hrow).1

/-- Just one cell is shown: the one that alignment looks up. -/
theorem shows_iff {column : List (Option Date)} (hc : a.column? symbol = some column)
    (hs : p.symbolIndex? symbol = some col) (hr : p.rows = a.rows.length) :
    p.Shows a day symbol x ↔ x = p.latestCell column day col := by
  unfold latestCell
  cases hrow : Announcements.latestRow? column day with
  | none =>
    have hnone := (Announcements.latestRow?_eq_none hc).mp hrow
    constructor
    · intro h
      cases h with
      | latest h _ => exact absurd h.known (hnone _ _ h.announced)
      | none _ => rfl
    · rintro rfl
      exact .none hnone
  | some row =>
    obtain ⟨date, hlatest⟩ := (Announcements.latestRow?_eq_some hc).mp hrow
    have hcell : p.columnOf? symbol >>= (·[row]?) = some (p.cell row col) :=
      columnOf?_getElem? (hr ▸ lt_length_of_announcedAt? hlatest.announced) hs
    constructor
    · intro h
      cases h with
      | latest h hx =>
        obtain ⟨-, rfl⟩ := hlatest.unique h
        exact Option.some.inj (hx.symm.trans hcell)
      | none hnone => exact absurd hlatest.known (hnone _ _ hlatest.announced)
    · rintro rfl
      exact .latest hlatest hcell

theorem exists_column?_iff :
    (∃ column, a.column? symbol = some column) ↔ symbol ∈ a.symbols := by
  unfold Announcements.column?
  cases h : a.symbols.idxOf? symbol with
  | none => simpa using List.idxOf?_eq_none_iff.mp h
  | some col => simpa using List.mem_of_getElem? (List.getElem?_eq_some_iff.mpr
      ⟨(List.idxOf?_eq_some_iff.mp h).1, by simpa using (List.idxOf?_eq_some_iff.mp h).2.1⟩)

/-- Whether a panel can be aligned is a matter of its rows and its securities. -/
theorem exists_align_iff : (∃ q, p.align a days = .ok q) ↔
    days.Pairwise (· < ·) ∧ p.rows = a.rows.length ∧ ∀ symbol ∈ p.symbols, symbol ∈ a.symbols := by
  rw [align_ok_iff, checkDates_iff]
  simp only [exists_column?_iff]

/-- An aligned panel has the cells that the panel shows. -/
theorem get?_align (h : p.align a days = .ok q) (hd : day ∈ days) (hs : symbol ∈ p.symbols) :
    ∃ x, q.get? day symbol = some x ∧ ∀ y, p.Shows a day symbol y ↔ y = x := by
  obtain ⟨hdays, hrows, -⟩ := exists_align_iff.mp ⟨q, h⟩
  obtain ⟨-, hqd, hqs, hcell⟩ := align_ok h
  obtain ⟨row, col, hrow, hcol, hget⟩ :=
    exists_get?_eq_cell (hqd ▸ nodup_of_increasing hdays) (hqd ▸ hd) (hqs ▸ hs)
  obtain ⟨column, hcolumn, hq⟩ :=
    hcell row col day symbol (hqd ▸ hrow) (hqs ▸ getElem?_of_symbolIndex? hcol)
  refine ⟨_, hget, fun y => ?_⟩
  rw [hq]
  exact shows_iff hcolumn (by rwa [symbolIndex?, ← hqs]) hrows

/-- Aligning by the rows that show of a security on some days. -/
def alignBy (shown : List (Option Date) → List Date → List (Option Nat)) (p : Panel)
    (a : Announcements) (days : List Date) : Except ShapeError Panel := do
  checkDates days
  if p.rows ≠ a.rows.length then
    throw (.rowMismatch p.rows a.rows.length)
  let columns ← p.symbols.mapM fun symbol =>
    match a.column? symbol with
    | some column => .ok (shown column days)
    | none => .error (.missingAnnouncements symbol)
  return tabulate days p.symbols fun day col =>
    match (columns.getD col []).getD day none with
    | some row => p.cell row col
    | none => Cell.missing

/-- Aligning in one pass through the sorted announcements of each security. -/
def alignInOnePass (p : Panel) (a : Announcements) (days : List Date) : Except ShapeError Panel :=
  p.alignBy (fun column => Announcements.sweep none (Announcements.sorted column)) a days

/-- Only increasing days get as far as to the rows. -/
theorem alignBy_congr {shown shown' : List (Option Date) → List Date → List (Option Nat)}
    (h : days.Pairwise (· < ·) → ∀ column, shown column days = shown' column days) :
    p.alignBy shown a days = p.alignBy shown' a days := by
  unfold alignBy
  cases hd : checkDates days with
  | error e => rfl
  | ok u => simp only [h (pairwise_of_checkDates hd)]

theorem alignInOnePass_eq (p : Panel) (a : Announcements) (days : List Date) :
    p.alignInOnePass a days = p.align a days := by
  have align_eq : p.align a days =
      p.alignBy (fun column days => days.map (Announcements.latestRow? column)) a days := rfl
  rw [align_eq]
  exact alignBy_congr fun hd column => Announcements.sweep_sorted hd

/-- **Aligning shows what is known on each day.** A panel can be aligned to
increasing days if it has as many rows as there are announcements, and all of its
securities are announced. The result has its securities in their order, and the
cell under a day and a security is the observation whose announcement stands last,
by date and then by row, among those up to the day, or missing if there is none;
one pass through the sorted announcements of a security finds them all. -/
theorem align_shows (p : Panel) (a : Announcements) (days : List Date) :
    ((∃ q, p.align a days = .ok q) ↔ days.Pairwise (· < ·) ∧ p.rows = a.rows.length ∧
        ∀ symbol ∈ p.symbols, symbol ∈ a.symbols) ∧
      (∀ q, p.align a days = .ok q → q.dates = days ∧ q.symbols = p.symbols ∧
        ∀ day ∈ days, ∀ symbol ∈ p.symbols, ∃ x, q.get? day symbol = some x ∧
          ∀ y, p.Shows a day symbol y ↔ y = x) ∧
      p.alignInOnePass a days = p.align a days := by
  refine ⟨exists_align_iff, fun q h => ?_, alignInOnePass_eq p a days⟩
  obtain ⟨-, hdates, hsymbols, -⟩ := align_ok h
  exact ⟨hdates, hsymbols, fun day hd symbol hs => get?_align h hd hs⟩

/-! ## A row announced again -/

namespace Restated

def monday : Date := { year := 2020, month := 3, day := 2 }

def tuesday : Date := { year := 2020, month := 3, day := 3 }

def wednesday : Date := { year := 2020, month := 3, day := 4 }

def reports : Panel where
  dates := [{ year := 2019, month := 6, day := 30 }, { year := 2019, month := 9, day := 30 },
    { year := 2019, month := 12, day := 31 }]
  symbols := ["A", "B"]
  values := #[1, 10, 2, 20, 3, 30]
  size_eq := rfl

/-- The first row of one security comes after its last, two rows of the other one come together. -/
def announcements : Announcements where
  symbols := ["B", "A"]
  rows := [[some tuesday, some wednesday], [some tuesday, none], [none, some monday]]

def week : List Date := [monday, tuesday, wednesday]

end Restated

open Restated in
theorem align_shows_restated : ∃ q, reports.align announcements week = .ok q ∧
    q.get? tuesday "A" = some 3 ∧ reports.Shows announcements tuesday "A" 3 ∧
    q.get? wednesday "A" = some 1 ∧ reports.Shows announcements wednesday "A" 1 ∧
    q.get? wednesday "B" = some 20 ∧ reports.Shows announcements wednesday "B" 20 ∧
    q.get? monday "B" = some Cell.missing ∧
      reports.Shows announcements monday "B" Cell.missing := by
  obtain ⟨q, h, hta, hwa, hwb, hmb⟩ : ∃ q, reports.align announcements week = .ok q ∧
      q.get? tuesday "A" = some 3 ∧ q.get? wednesday "A" = some 1 ∧
      q.get? wednesday "B" = some 20 ∧ q.get? monday "B" = some Cell.missing :=
    ⟨_, rfl, rfl, rfl, rfl, rfl⟩
  obtain ⟨-, -, cells⟩ := (align_shows reports announcements week).2.1 q h
  have shows {day : Date} {symbol : String} {x : Float} (hd : day ∈ week)
      (hs : symbol ∈ reports.symbols) (hx : q.get? day symbol = some x) :
      reports.Shows announcements day symbol x := by
    obtain ⟨_, hy, h⟩ := cells day hd symbol hs
    exact (h x).mpr (Option.some.inj (hx.symm.trans hy))
  have hmonday : monday ∈ week := .head _
  have htuesday : tuesday ∈ week := .tail _ (.head _)
  have hwednesday : wednesday ∈ week := .tail _ (.tail _ (.head _))
  exact ⟨q, h, hta, shows htuesday (.head _) hta, hwa, shows hwednesday (.head _) hwa,
    hwb, shows hwednesday (.tail _ (.head _)) hwb, hmb, shows hmonday (.tail _ (.head _)) hmb⟩

end PanelCalc.Panel
