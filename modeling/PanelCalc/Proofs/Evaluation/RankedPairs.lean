import PanelCalc.Builtin.Call
import PanelCalc.Proofs.Panel.Conforming

/-! # Rankings of one panel by another one

A function that ranks a panel by another one brings the first on the trading
dates by itself. The second is then brought on the index of the first by the
rules for operands of different frequency, which know shorter panels only. So of
two panels on one index, which both can be brought on the trading dates, the
second gets there only if the two have fewer rows than there are trading dates,
or are on these dates already. Otherwise it is turned down for its dates. -/
namespace PanelCalc

open Panel

variable {H : Type} {a : Alignment} {calendar : TradingCalendar} {x x' k k' : Panel} {f : Builtin}
  {row : Nat}

/-! ## Bringing both panels on the trading dates -/

namespace Alignment

/-- The first row whose dates differ in two lists. -/
structure DifferFirst (ds es : List Date) (row : Nat) : Prop where
  differ : ds[row]? ≠ es[row]?
  before : ∀ earlier < row, ds[earlier]? = es[earlier]?

theorem differFirst_of_firstDifference? {ds es : List Date} (hl : es.length = ds.length)
    (h : firstDifference? ds es = some row) : DifferFirst ds es row := by
  obtain ⟨hz, hrow, hbefore⟩ := List.findIdx?_eq_some_iff_getElem.mp h
  have hlength : (ds.zip es).length = ds.length := by simp [hl]
  have hds : row < ds.length := hlength ▸ hz
  have hes : row < es.length := hl ▸ hds
  constructor
  · simpa [hds, hes] using hrow
  · intro earlier hlt
    have hds' : earlier < ds.length := hlt.trans hds
    have hes' : earlier < es.length := hl ▸ hds'
    simpa [hds', hes'] using hbefore earlier hlt

/-- Panels on one index are on one index once they are on the trading dates. -/
theorem indexedAs_rebase (hc : a.calendar? = some calendar) (h : k.IndexedAs x)
    (hx : a.rebase x = .ok x') (hk : a.rebase k = .ok k') : k'.IndexedAs x' where
  dates := (rebase_ok hc hk).trans (rebase_ok hc hx).symm
  symbols := by rw [symbols_rebase hk, symbols_rebase hx, h.symbols]

/-- On the trading dates, or with fewer rows than these, the second panel follows the first. -/
theorem conform_rebased (hc : a.calendar? = some calendar) (h : k.IndexedAs x)
    (hx : a.rebase x = .ok x') (hk : a.rebase k = .ok k')
    (hdates : x.dates = calendar.tradeDates ∨ x.rows < calendar.tradeDates.length) :
    a.conform x' k = .ok k' := by
  have hindex := indexedAs_rebase hc h hx hk
  have hrows : k.rows = x.rows := congrArg List.length h.dates
  obtain ⟨hd, rfl⟩ | ⟨_, hc', hd, halign⟩ := rebase_eq_ok.mp hk
  · cases (rebase_self (h.dates ▸ hd)).symm.trans hx
    exact conform_self h
  · cases hc.symm.trans hc'
    have hon : x'.dates = calendar.tradeDates := rebase_ok hc hx
    have hlt : k.rows < x'.rows := by
      rw [hrows, show x'.rows = _ from congrArg List.length hon]
      exact hdates.resolve_left (h.dates ▸ hd)
    rw [conform_eq, conformDates_eq_ok.mpr (.inr ⟨hlt, calendar, hc, hon ▸ halign⟩)]
    exact if_pos hindex.symbols

/-- With more rows than trading dates the second panel is longer than the first. -/
theorem conform_longer (hc : a.calendar? = some calendar) (h : k.IndexedAs x)
    (hx : a.rebase x = .ok x') (hlt : calendar.tradeDates.length < x.rows) :
    a.conform x' k = .error (.rowMismatch calendar.tradeDates.length x.rows) := by
  have hrows : k.rows = x.rows := congrArg List.length h.dates
  have hrows' : x'.rows = calendar.tradeDates.length := congrArg List.length (rebase_ok hc hx)
  rw [conform_eq, conformDates, hrows, hrows', if_neg hlt.ne', hc]
  simp only [if_pos hlt]
  rfl

/-- With as many rows as trading dates the second panel is on other dates than the first. -/
theorem conform_otherDates (hc : a.calendar? = some calendar) (h : k.IndexedAs x)
    (hx : a.rebase x = .ok x') (hlength : x.rows = calendar.tradeDates.length)
    (hd : x.dates ≠ calendar.tradeDates) : ∃ row, DifferFirst calendar.tradeDates x.dates row ∧
      a.conform x' k = .error (.dateMismatch row) := by
  have hon : x'.dates = calendar.tradeDates := rebase_ok hc hx
  have hrows : k.rows = x'.rows := by
    rw [rows, rows, h.dates, hon]
    exact hlength
  cases hf : firstDifference? calendar.tradeDates x.dates with
  | none => exact absurd (eq_of_firstDifference? hlength hf) hd
  | some row =>
    refine ⟨row, differFirst_of_firstDifference? hlength hf, ?_⟩
    rw [conform_eq, conformDates, if_pos hrows, hon, h.dates, hf]
    rfl

end Alignment

/-! ## Calling the functions -/

namespace Builtin

/-- The functions that rank one panel by another one, and how they rank a row. -/
inductive RanksBy : Builtin → (List Float → List Float → List Float) → Prop
  | group : RanksBy groupRank Ranking.byGroup
  | condition : RanksBy conditionRank Ranking.byCondition

theorem call_rank (hx : a.rebase x = .ok x') :
    call a rank [(.panel x : Value H)] = .ok (.panel (x'.mapRows fun _ => Ranking.all)) := by
  simp only [call, Value.toPanel, rebased, hx, bind, Except.bind, Except.mapError]
  rfl

/-- A panel can be ranked by itself if it can be brought on the trading dates. -/
theorem exists_rank_iff : (∃ ranks, call a rank [(.panel x : Value H)] = .ok ranks) ↔
    ∃ x', a.rebase x = .ok x' := by
  constructor
  · rintro ⟨ranks, h⟩
    obtain ⟨_, ⟨⟩, h⟩ := bind_ok h
    obtain ⟨x', hx, -⟩ := bind_ok h
    exact ⟨x', mapError_ok hx⟩
  · rintro ⟨x', hx⟩
    exact ⟨_, call_rank hx⟩

variable {ranks : List Float → List Float → List Float}

/-- The first panel decides on the dates on which the second has to be. -/
theorem RanksBy.call_eq (h : f.RanksBy ranks) (hx : a.rebase x = .ok x') :
    call a f [(.panel x : Value H), .panel k] = ((a.conform x' k).map fun k' =>
      .panel (x'.mapRows fun row => ranks (k'.rowCells row))).mapError .shape := by
  cases h with
  | group | condition =>
    simp only [call, Value.toPanel, rebased, hx, bind, Except.bind, Except.mapError]
    cases a.conform x' k <;> rfl

theorem RanksBy.call_ok (h : f.RanksBy ranks) (hx : a.rebase x = .ok x')
    (hk : a.conform x' k = .ok k') : call a f [(.panel x : Value H), .panel k] =
      .ok (.panel (x'.mapRows fun row => ranks (k'.rowCells row))) := by
  rw [h.call_eq hx, hk]
  rfl

/-- Where no calendar is known panels on one index are ranked as they are. -/
theorem RanksBy.call_never (h : f.RanksBy ranks) (hindex : k.IndexedAs x) :
    call .never f [(.panel x : Value H), .panel k] =
      .ok (.panel (x.mapRows fun row => ranks (k.rowCells row))) :=
  h.call_ok (a := .never) rfl (Alignment.conform_self hindex)

/-- **Rankings of one panel by another one on the trading dates.** Take two panels
on one index, each of which can be ranked by itself. If they are on the trading
dates, or have fewer rows than there are trading dates, one is ranked by the other
as they are without a calendar once both are on the trading dates. If they have
more rows, or as many rows on other dates, ranking fails, although both can be
brought on the trading dates: the second panel is turned down for its rows or its
dates. -/
theorem call_ranksBy_rebased (hf : f = groupRank ∨ f = conditionRank)
    (hc : a.calendar? = some calendar) (hindex : k.IndexedAs x)
    (hx : ∃ ranks, call a rank [(.panel x : Value H)] = .ok ranks)
    (hk : ∃ ranks, call a rank [(.panel k : Value H)] = .ok ranks) :
    ∃ x' k', a.rebase x = .ok x' ∧ a.rebase k = .ok k' ∧
      (∃ ranks, call .never f [(.panel x' : Value H), .panel k'] = .ok (.panel ranks)) ∧
      ((∃ ranks, call a f [(.panel x : Value H), .panel k] = .ok ranks) ↔
        x.dates = calendar.tradeDates ∨ x.rows < calendar.tradeDates.length) ∧
      (x.dates = calendar.tradeDates ∨ x.rows < calendar.tradeDates.length →
        call a f [(.panel x : Value H), .panel k] =
          call .never f [(.panel x' : Value H), .panel k']) ∧
      (calendar.tradeDates.length < x.rows → call a f [(.panel x : Value H), .panel k] =
        .error (.shape (.rowMismatch calendar.tradeDates.length x.rows))) ∧
      (x.rows = calendar.tradeDates.length → x.dates ≠ calendar.tradeDates →
        ∃ row, Alignment.DifferFirst calendar.tradeDates x.dates row ∧
          call a f [(.panel x : Value H), .panel k] = .error (.shape (.dateMismatch row))) := by
  obtain ⟨x', hx⟩ := exists_rank_iff.mp hx
  obtain ⟨k', hk⟩ := exists_rank_iff.mp hk
  obtain ⟨ranks, hr⟩ : ∃ ranks, f.RanksBy ranks := by
    rcases hf with rfl | rfl
    · exact ⟨_, .group⟩
    · exact ⟨_, .condition⟩
  have hplain := hr.call_never (H := H) (Alignment.indexedAs_rebase hc hindex hx hk)
  have hsame (hd : x.dates = calendar.tradeDates ∨ x.rows < calendar.tradeDates.length) :
      call a f [(.panel x : Value H), .panel k] =
        call .never f [(.panel x' : Value H), .panel k'] := by
    rw [hplain, hr.call_ok hx (Alignment.conform_rebased hc hindex hx hk hd)]
  have hlonger (hlt : calendar.tradeDates.length < x.rows) :
      call a f [(.panel x : Value H), .panel k] =
        .error (.shape (.rowMismatch calendar.tradeDates.length x.rows)) := by
    rw [hr.call_eq hx, Alignment.conform_longer hc hindex hx hlt]
    rfl
  have hother (hl : x.rows = calendar.tradeDates.length) (hd : x.dates ≠ calendar.tradeDates) :
      ∃ row, Alignment.DifferFirst calendar.tradeDates x.dates row ∧
        call a f [(.panel x : Value H), .panel k] = .error (.shape (.dateMismatch row)) := by
    obtain ⟨row, hrow, he⟩ := Alignment.conform_otherDates hc hindex hx hl hd
    exact ⟨row, hrow, by rw [hr.call_eq hx, he]; rfl⟩
  refine ⟨x', k', hx, hk, ⟨_, hplain⟩, ⟨?_, fun hd => ⟨_, (hsame hd).trans hplain⟩⟩, hsame,
    hlonger, hother⟩
  rintro ⟨value, hv⟩
  by_contra hd
  obtain ⟨hd, hle⟩ := not_or.mp hd
  rcases Nat.lt_or_eq_of_le (Nat.le_of_not_lt hle) with hlt | hl
  · cases hv.symm.trans (hlonger hlt)
  · obtain ⟨row, -, he⟩ := hother hl.symm hd
    cases hv.symm.trans he

end Builtin

namespace MonthlyRanks

/-- Reported for two months. -/
def months (values : Array Float) (h : values.size = 4) : Panel where
  dates := [{ year := 2023, month := 1, day := 31 }, { year := 2023, month := 2, day := 28 }]
  symbols := ["A", "B"]
  values := values
  size_eq := h

theorem indexedAs_months {values values' : Array Float} (h : values.size = 4)
    (h' : values'.size = 4) : (months values h).IndexedAs (months values' h') := ⟨rfl, rfl⟩

def margins : Panel := months #[1, 2, 3, 4] rfl

def sectors : Panel := months #[1, 1, 1, 1] rfl

def announcements : Announcements where
  symbols := ["A", "B"]
  rows := [List.replicate 2 (some { year := 2023, month := 2, day := 15 }),
    List.replicate 2 (some { year := 2023, month := 3, day := 15 })]

/-- One trading date, after both announcements. -/
def oneDay : TradingCalendar := ⟨announcements, [{ year := 2023, month := 3, day := 28 }]⟩

/-- Three trading dates. -/
def threeDays : TradingCalendar := ⟨announcements, [{ year := 2023, month := 3, day := 27 },
  { year := 2023, month := 3, day := 28 }, { year := 2023, month := 3, day := 29 }]⟩

end MonthlyRanks

open MonthlyRanks in
/-- Two months are ranked within their sectors on three trading dates, but not on a single one. -/
theorem Builtin.call_ranksBy_rebased_months :
    (∃ ranks, call (.whenNeeded threeDays) groupRank
      [(.panel margins : Value Empty), .panel sectors] = .ok ranks) ∧
    call (.whenNeeded oneDay) groupRank [(.panel margins : Value Empty), .panel sectors] =
      .error (.shape (.rowMismatch 1 2)) := by
  have hindex : sectors.IndexedAs margins := indexedAs_months rfl rfl
  constructor
  · obtain ⟨_, _, -, -, -, hiff, -⟩ := call_ranksBy_rebased (H := Empty)
      (a := .whenNeeded threeDays) (.inl rfl) rfl hindex (exists_rank_iff.mpr ⟨_, rfl⟩)
      (exists_rank_iff.mpr ⟨_, rfl⟩)
    exact hiff.mpr (.inr (by decide))
  · obtain ⟨_, _, -, -, -, -, -, hlonger, -⟩ := call_ranksBy_rebased (H := Empty)
      (a := .whenNeeded oneDay) (.inl rfl) rfl hindex (exists_rank_iff.mpr ⟨_, rfl⟩)
      (exists_rank_iff.mpr ⟨_, rfl⟩)
    exact hlonger (by decide)

end PanelCalc
