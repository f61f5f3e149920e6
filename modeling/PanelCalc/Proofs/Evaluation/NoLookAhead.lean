import PanelCalc.Proofs.Evaluation.Views

/-! # No look-ahead through an evaluation

Histories are worked on before they are aligned, so a row shows what its own
announcement and the rows before it tell. As long as no row after a certain one
shows, a cell of that row has no effect before it is announced. A row after it
that is announced earlier gives it away: `Delay` moves the cell there. -/
namespace PanelCalc

variable {H : Type}

/-- Two bindings that differ in one cell of a panel off the trading dates, and
only in what is not announced by a day. -/
structure Bindings.DifferLate (calendar : TradingCalendar) (day : Date) (row : Nat)
    (symbol : String) (b b' : Bindings H) : Prop where
  numeric : ∀ name value, b.get? name = some value →
    (∃ x, value = .scalar x) ∨ ∃ p, value = .panel p ∧ p.Valid
  changed : ∃ name p p', b.get? name = some (.panel p) ∧ b'.get? name = some (.panel p') ∧
    (∀ other, other ≠ name → b'.get? other = b.get? other) ∧
    p.dates ≠ calendar.tradeDates ∧ p.rows = calendar.announcements.rows.length ∧
    p.dates = p'.dates ∧ p.symbols = p'.symbols ∧
    ∀ i col, i < p.rows → col < p.cols → ¬(i = row ∧ p.symbols[col]? = some symbol) →
      p.cell i col = p'.cell i col
  late : ∀ date, calendar.announcements.announcedAt? row symbol = some date → day < date

/-- What is known by a day: the trading dates up to it, and of other panels with
announcements all but the rows of a security from a certain one on. -/
def View.upTo (calendar : TradingCalendar) (day : Date) (row : Nat) (symbol : String)
    (sorted : calendar.tradeDates.Pairwise (· < ·))
    (hidden : ∀ date ∈ calendar.tradeDates, date ≤ day → ∀ column shown,
      calendar.announcements.column? symbol = some column →
      Announcements.latestRow? column date = some shown → shown < row) : View calendar where
  sees dates i other :=
    dates = calendar.tradeDates ∧ (∃ date, dates[i]? = some date ∧ date ≤ day) ∨
      dates ≠ calendar.tradeDates ∧ dates.length = calendar.announcements.rows.length ∧
        (other = symbol → i < row)
  earlier := by
    rintro dates i before other (⟨rfl, date, hi, hle⟩ | ⟨hd, hl, hlt⟩) hb
    · obtain ⟨hlen, hdate⟩ := List.getElem?_eq_some_iff.mp hi
      refine .inl ⟨rfl, _, List.getElem?_eq_getElem (Nat.lt_of_le_of_lt hb hlen), ?_⟩
      rcases Nat.lt_or_eq_of_le hb with hb | rfl
      · have := List.pairwise_iff_getElem.mp sorted before i (Nat.lt_trans hb hlen) hlen hb
        rw [hdate] at this
        exact Int.le_trans (Int.le_of_lt this) hle
      · rwa [hdate]
    · exact .inr ⟨hd, hl, fun ho => Nat.lt_of_le_of_lt hb (hlt ho)⟩
  level := by
    rintro i other other' (⟨hd, h⟩ | ⟨hd, -⟩)
    · exact .inl ⟨hd, h⟩
    · exact absurd rfl hd
  aligned := by
    rintro dates days i shown other column date hl hne hdays hcolumn hi hs
      (⟨rfl, date', hi', hle⟩ | ⟨hd, hlen, -⟩)
    · refine .inr ⟨hne, hl, ?_⟩
      rintro rfl
      rw [hi, Option.some.injEq] at hi'
      subst hi'
      exact hidden date (List.mem_of_getElem? hi) hle column shown hcolumn hs
    · rcases hdays with rfl | hlt
      · exact absurd rfl hd
      · omega

theorem TradingCalendar.sorted_of_ofDates {announcements : Announcements} {dates : List Date}
    {calendar : TradingCalendar} (h : ofDates announcements dates = .ok calendar) :
    calendar.tradeDates.Pairwise (· < ·) := by
  obtain ⟨_, hd, h⟩ := bind_ok h
  cases h
  exact Panel.pairwise_of_checkDates hd

/-- A row that is announced after a day does not show by then. -/
theorem Announcements.ne_of_late {a : Announcements} {symbol : String} {row shown : Nat}
    {day date : Date} {column : List (Option Date)}
    (late : ∀ announced, a.announcedAt? row symbol = some announced → day < announced)
    (hc : a.column? symbol = some column) (hs : latestRow? column date = some shown)
    (hd : date ≤ day) : shown ≠ row := by
  rintro rfl
  obtain ⟨announced, ha, hle⟩ := announced_of_latestRow? hs
  have := late announced (announcedAt?_of_column? hc ha)
  exact absurd (Int.lt_of_lt_of_le this (Int.le_trans hle hd)) (Int.lt_irrefl _)

theorem Bindings.DifferLate.alike {calendar : TradingCalendar} {day : Date} {row : Nat}
    {symbol : String} {b b' : Bindings H} (h : b.DifferLate calendar day row symbol b')
    (sorted hidden) :
    b.Alike (Panel.Agree (View.upTo calendar day row symbol sorted hidden)) b' := by
  obtain ⟨changed, p, p', hp, hp', hother, hd, hl, hdates, hsymbols, hcells⟩ := h.changed
  intro name
  by_cases hn : name = changed
  · rw [hn, hp, hp']
    refine .some (.panel ⟨hdates, hsymbols, fun i col other hi hs hv => ?_⟩)
    refine hcells i col hi (Panel.lt_cols hs) ?_
    rintro ⟨rfl, hsymbol⟩
    rw [hs, Option.some.injEq] at hsymbol
    rcases hv with ⟨ht, -⟩ | ⟨-, -, hlt⟩
    · exact hd ht
    · exact Nat.lt_irrefl i (hlt hsymbol)
  · rw [hother name hn]
    cases hv : b.get? name with
    | none => exact .none
    | some value =>
      rcases h.numeric name value hv with ⟨x, rfl⟩ | ⟨q, rfl, -⟩
      · exact .some (.scalar x)
      · exact .some (.panel (.refl q))

/-- **No look-ahead.** If no row after a certain one shows up to a day, then a cell of that row
that is announced later has no effect up to that day. -/
theorem Formula.evaluate_differLate [HostFunctions H] {caseStyle : CaseStyle} (program : Program)
    {announcements : Announcements} {dates : List Date} {calendar : TradingCalendar}
    (hc : TradingCalendar.ofDates announcements dates = .ok calendar)
    {day : Date} {row : Nat} {symbol : String} {b b' : Bindings H}
    (h : b.DifferLate calendar day row symbol b')
    (hlater : ∀ date ∈ calendar.tradeDates, date ≤ day → ∀ column shown,
      calendar.announcements.column? symbol = some column →
      Announcements.latestRow? column date = some shown → shown ≤ row)
    {p : Panel}
    (hp : Formula.evaluate ⟨program, Vocabulary.builtin caseStyle⟩ b (.whenNeeded calendar) =
      .ok (.panel p))
    (hd : p.dates = calendar.tradeDates) :
    ∃ p', Formula.evaluate ⟨program, Vocabulary.builtin caseStyle⟩ b' (.whenNeeded calendar) =
        .ok (.panel p') ∧ p'.dates = p.dates ∧ p'.symbols = p.symbols ∧
      ∀ i col date, p.dates[i]? = some date → date ≤ day → col < p.cols →
        p.cell i col = p'.cell i col := by
  have sorted := TradingCalendar.sorted_of_ofDates hc
  have hidden : ∀ date ∈ calendar.tradeDates, date ≤ day → ∀ column shown,
      calendar.announcements.column? symbol = some column →
      Announcements.latestRow? column date = some shown → shown < row :=
    fun date hm hle column shown hcolumn hs =>
      Nat.lt_of_le_of_ne (hlater date hm hle column shown hcolumn hs)
        (Announcements.ne_of_late h.late hcolumn hs hle)
  let view := View.upTo calendar day row symbol sorted hidden
  have key : Alike (Value.Alike (Panel.Agree view))
      (Formula.evaluate ⟨program, Vocabulary.builtin caseStyle⟩ b (.whenNeeded calendar))
      (Formula.evaluate ⟨program, Vocabulary.builtin caseStyle⟩ b' (.whenNeeded calendar)) :=
    Formula.evaluate_alike (Builtin.keep_agree rfl) (h.alike sorted hidden) program
  rw [hp] at key
  generalize Formula.evaluate ⟨program, Vocabulary.builtin caseStyle⟩ b' (.whenNeeded calendar) =
    answer at key ⊢
  cases key with
  | ok hv =>
    cases hv with
    | panel hag =>
      refine ⟨_, rfl, hag.dates.symm, hag.symbols.symm, fun i col date hi hle hcol => ?_⟩
      refine hag.cells i col _ (List.getElem?_eq_some_iff.mp hi).1
        (List.getElem?_eq_getElem hcol) ?_
      exact .inl ⟨hd, date, hi, hle⟩

/-! ## A report that is late -/

namespace Reports

def january : Date := ⟨2024, 1, 31, by decide⟩
def february : Date := ⟨2024, 2, 29, by decide⟩
def march : Date := ⟨2024, 3, 29, by decide⟩
def april : Date := ⟨2024, 4, 30, by decide⟩

/-- Trading from February on, and two reports that are announced on the given dates. -/
def calendar (first second : Date) : TradingCalendar :=
  ⟨⟨["A"], [[some first], [some second]]⟩, [february, march, april]⟩

/-- Two reported numbers. -/
def reported (x y : Float) : Panel := ⟨[⟨2023, 12, 29, by decide⟩, january], ["A"], #[x, y], rfl⟩

/-- A panel of prices on the trading dates. -/
def prices : Panel := ⟨[february, march, april], ["A"], #[1, 2, 3], rfl⟩

def bindings (x y : Float) : Bindings Empty :=
  ⟨[("eps", .panel (reported x y)), ("close", .panel prices)]⟩

/-- `If(1, Delay(eps, 1), close)`: the report before the latest one, on the trading dates. -/
def previous : Program :=
  [.var "If", .literal (.number 1), .var "Delay", .var "eps", .literal (.number 1), .binary ",",
    .call, .binary ",", .var "close", .binary ",", .call]

theorem parse_previous : Formula.parse (Vocabulary.builtin .upper : Vocabulary Empty)
    "If(1, Delay(eps, 1), close)" = .ok ⟨previous, Vocabulary.builtin .upper⟩ :=
  Formula.parse_of_read (by decide +kernel)

theorem ofDates_calendar (first second : Date) :
    TradingCalendar.ofDates ⟨["A"], [[some first], [some second]]⟩ [february, march, april] =
      .ok (calendar first second) := rfl

theorem get?_bindings {x y : Float} {name : String} {value : Value Empty}
    (h : (bindings x y).get? name = some value) :
    value = .panel (reported x y) ∨ value = .panel prices := by
  simp only [Bindings.get?, bindings, List.lookup_cons] at h
  split at h
  · exact .inl (Option.some.inj h).symm
  split at h
  · exact .inr (Option.some.inj h).symm
  · cases h

theorem get?_of_ne {name : String} (h : name ≠ "eps") (x y x' y' : Float) :
    (bindings x' y').get? name = (bindings x y).get? name := by
  have : (name == "eps") = false := by simpa using h
  simp [Bindings.get?, bindings, List.lookup_cons, this]

/-- Other numbers in one of the reports, before it is announced. -/
theorem differLate {first second day : Date} {row : Nat} {x y x' y' : Float}
    (hx : row ≠ 0 → x = x') (hy : row ≠ 1 → y = y')
    (late : ∀ date, (calendar first second).announcements.announcedAt? row "A" = some date →
      day < date) :
    (bindings x y).DifferLate (calendar first second) day row "A" (bindings x' y') := by
  have hdates : (reported x y).dates ≠ (calendar first second).tradeDates := by
    intro hd
    cases hd
  refine ⟨fun name value h => ?_, ⟨"eps", reported x y, reported x' y', rfl, rfl,
    fun other ho => get?_of_ne ho x y x' y', hdates, rfl, rfl, rfl, fun i col hi hc hne => ?_⟩, late⟩
  · rcases get?_bindings h with rfl | rfl
    · exact .inr ⟨_, rfl, show [_, january].Pairwise (· < ·) by decide, show ["A"].Nodup by decide⟩
    · exact .inr ⟨_, rfl, by decide, by decide⟩
  · have hi : i < 2 := hi
    obtain rfl : col = 0 := Nat.lt_one_iff.mp hc
    rcases i with _ | _ | i
    · exact hx fun h => hne ⟨h.symm, rfl⟩
    · exact hy fun h => hne ⟨h.symm, rfl⟩
    · omega

end Reports

open Reports

/-- The earlier report shows before it is announced, where the later one is announced first. -/
theorem Formula.evaluate_late_report :
    ¬ ∀ (text : String) (f : Formula Empty) (announcements : Announcements) (dates : List Date)
      (calendar : TradingCalendar) (day : Date) (row : Nat) (symbol : String)
      (b b' : Bindings Empty) (p p' : Panel),
      Formula.parse (Vocabulary.builtin .upper) text = .ok f → .var "Step" ∉ f.program →
      TradingCalendar.ofDates announcements dates = .ok calendar →
      b.DifferLate calendar day row symbol b' →
      f.evaluate b (.whenNeeded calendar) = .ok (.panel p) →
      f.evaluate b' (.whenNeeded calendar) = .ok (.panel p') →
      p.dates = calendar.tradeDates → p'.dates = calendar.tradeDates →
      ∀ i col date, p.dates[i]? = some date → date ≤ day → col < p.cols →
        p.cell i col = p'.cell i col := by
  intro h
  have late : (bindings 5 6).DifferLate (calendar march february) february 0 "A" (bindings 7 6) := by
    refine differLate (fun h => absurd rfl h) (fun _ => rfl) fun date hd => ?_
    cases hd
    decide
  have same := h _ _ _ _ _ february 0 "A" (bindings 5 6) (bindings 7 6) _ _ parse_previous
    (by decide) (ofDates_calendar march february) late rfl rfl rfl rfl 0 0 february rfl (by decide)
    (by decide)
  revert same
  decide

/-- Reports in the order of their announcements: the second one has no effect in March. -/
theorem Formula.evaluate_differLate_reports : ∃ p p',
    Formula.evaluate ⟨previous, Vocabulary.builtin .upper⟩ (bindings 5 6)
        (.whenNeeded (calendar march april)) = .ok (.panel p) ∧
      Formula.evaluate ⟨previous, Vocabulary.builtin .upper⟩ (bindings 5 7)
        (.whenNeeded (calendar march april)) = .ok (.panel p') ∧
      ∀ i col date, p.dates[i]? = some date → date ≤ march → col < p.cols →
        p.cell i col = p'.cell i col := by
  have late : (bindings 5 6).DifferLate (calendar march april) march 1 "A" (bindings 5 7) := by
    refine differLate (fun _ => rfl) (fun h => absurd rfl h) fun date hd => ?_
    cases hd
    decide
  have first : ∀ date ∈ (calendar march april).tradeDates, date ≤ march → ∀ column shown,
      (calendar march april).announcements.column? "A" = some column →
      Announcements.latestRow? column date = some shown → shown ≤ 1 := by
    intro date _ _ column shown hc hs
    cases hc
    obtain ⟨announced, ha, -⟩ := Announcements.announced_of_latestRow? hs
    have := (List.getElem?_eq_some_iff.mp ha).1
    exact Nat.le_of_lt_succ this
  obtain ⟨p, hp, hd⟩ : ∃ p, Formula.evaluate ⟨previous, Vocabulary.builtin .upper⟩ (bindings 5 6)
      (.whenNeeded (calendar march april)) = .ok (.panel p) ∧
        p.dates = (calendar march april).tradeDates := ⟨_, rfl, rfl⟩
  obtain ⟨p', hp', -, -, hcells⟩ :=
    Formula.evaluate_differLate previous (ofDates_calendar march april) late first hp hd
  exact ⟨p, p', hp, hp', hcells⟩

end PanelCalc
