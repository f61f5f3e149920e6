import PanelCalc.Proofs.Evaluation.Invariants

/-! # Calendars act only where they must

Without a calendar, panels that do not fit each other are an error. With one,
they may be aligned, but what fits is left as it is. So a formula that gives a
value without a calendar gives the same with it, unless it ranks securities,
which is done on the trading dates. On panels that are on the trading dates
already, it makes no difference whether there is a calendar or when it is used. -/
namespace PanelCalc

namespace Alignment

variable {a a' : Alignment} {p q reference : Panel}

/-- What conforms without a calendar conforms with any. -/
theorem conform_of_never (h : never.conform reference p = .ok q) :
    a.conform reference p = .ok q := by
  rw [conform_eq] at h ⊢
  obtain ⟨x, hx, hq⟩ := bind_ok h
  unfold conformDates at hx
  split at hx
  · rename_i hrows
    rw [conformDates, if_pos hrows, hx]
    exact hq
  · cases hx

/-- On the same dates, the calendar has no part in conforming. -/
theorem conform_congr (h : p.dates = reference.dates) :
    a.conform reference p = a'.conform reference p := by
  rw [conform_eq, conform_eq, conformDates_self h, conformDates_self h]

theorem prepare_self (h : ∀ c, a.calendar? = some c → p.dates = c.tradeDates) :
    a.prepare p = .ok p := by
  cases a with
  | always c => exact rebase_self h
  | never => rfl
  | whenNeeded c => rfl

end Alignment

open Panel (Kept)

/-- **Having a calendar is a simulation** of having none, as far as there are
results and no securities are ranked. -/
theorem Simulation.withCalendar (c : TradingCalendar) :
    Simulation False (¬ ·.Ranks) (Kept fun _ => True) .never (.whenNeeded c) := by
  refine .kept (fun _ _ _ _ => trivial) ?_ ?_ ?_
  · intro p hp
    exact .ok ⟨rfl, hp⟩
  · intro reference p _ _
    exact .of_lenient fun q hq => ⟨q, Alignment.conform_of_never hq, rfl⟩
  · intro f p hf hn
    exact absurd hf hn

/-- **Having a calendar is a simulation** of having none on the trading dates,
whenever it is used. -/
theorem Simulation.onTradingDates {a : Alignment} {c : TradingCalendar}
    (hc : a.calendar? = some c) :
    Simulation True (fun _ => True) (Kept (·.dates = c.tradeDates)) .never a := by
  have traded {p : Panel} (hp : p.dates = c.tradeDates) :
      ∀ c', a.calendar? = some c' → p.dates = c'.tradeDates := by
    intro c' hc'
    rwa [← Option.some.inj (hc.symm.trans hc')]
  refine .kept (fun p q hi hp => hi.dates.trans hp) ?_ ?_ ?_
  · intro p hp
    rw [Alignment.prepare_self (traded hp)]
    exact .ok ⟨rfl, hp⟩
  · intro reference p hr hp
    exact .of_eq (Alignment.conform_congr (hp.trans hr.symm))
  · intro _ p _ _ hp
    rw [Alignment.rebase_self (traded hp)]
    exact .ok ⟨rfl, hp⟩

namespace Formula

variable {H : Type} [HostFunctions H] {b : Bindings H} {caseStyle : CaseStyle} {program : Program}

theorem evaluate_withCalendar (hb : b.Over fun _ => True)
    (hp : ∀ f : Builtin, f.Ranks → .var (caseStyle.spell f.name) ∉ program) (c : TradingCalendar)
    {value : Value H} (h : evaluate ⟨program, Vocabulary.builtin caseStyle⟩ b .never = .ok value) :
    evaluate ⟨program, Vocabulary.builtin caseStyle⟩ b (.whenNeeded c) = .ok value := by
  have unranked : program.Allowed caseStyle (¬ ·.Ranks) := fun f hf hr => hp f hr hf
  obtain ⟨value', h', rfl, -⟩ :=
    (evaluate_kept (Simulation.withCalendar c) hb unranked).exists_ok h
  exact h'

theorem evaluate_onTradingDates {a : Alignment} {c : TradingCalendar} (hc : a.calendar? = some c)
    (hb : b.Over (·.dates = c.tradeDates)) :
    evaluate ⟨program, Vocabulary.builtin caseStyle⟩ b .never =
      evaluate ⟨program, Vocabulary.builtin caseStyle⟩ b a := by
  have h : Alike (fun x y => x = y ∧ ∀ p ∈ x.panels, p.dates = c.tradeDates)
      (evaluate ⟨program, Vocabulary.builtin caseStyle⟩ b .never)
      (evaluate ⟨program, Vocabulary.builtin caseStyle⟩ b a) :=
    evaluate_kept (Simulation.onTradingDates hc) hb fun _ _ => trivial
  generalize evaluate ⟨program, Vocabulary.builtin caseStyle⟩ b .never = answer at h ⊢
  generalize evaluate ⟨program, Vocabulary.builtin caseStyle⟩ b a = answer' at h ⊢
  cases h with
  | ok h => rw [h.1]
  | error => rfl
  | failed h => exact absurd trivial h

/-- **A calendar acts only where it must.** Over scalars and panels, what a formula
that ranks no securities gives without a calendar it gives with any; and if all
panels are on the trading dates, every formula gives the same value or the same
error without the calendar, with it where needed and with it always. -/
theorem evaluate_calendar (hb : b.Over fun _ => True) (c : TradingCalendar) :
    ((∀ f : Builtin, f.Ranks → .var (caseStyle.spell f.name) ∉ program) →
      ∀ value, evaluate ⟨program, Vocabulary.builtin caseStyle⟩ b .never = .ok value →
        evaluate ⟨program, Vocabulary.builtin caseStyle⟩ b (.whenNeeded c) = .ok value) ∧
    ((∀ name p, b.get? name = some (.panel p) → p.dates = c.tradeDates) →
      evaluate ⟨program, Vocabulary.builtin caseStyle⟩ b .never =
          evaluate ⟨program, Vocabulary.builtin caseStyle⟩ b (.whenNeeded c) ∧
        evaluate ⟨program, Vocabulary.builtin caseStyle⟩ b .never =
          evaluate ⟨program, Vocabulary.builtin caseStyle⟩ b (.always c)) := by
  constructor
  · intro hp value h
    exact evaluate_withCalendar hb hp c h
  · intro traded
    have onDates : b.Over (·.dates = c.tradeDates) := by
      intro name value hv
      rcases hb name value hv with ⟨x, rfl⟩ | ⟨p, rfl, -⟩
      · exact .inl ⟨x, rfl⟩
      · exact .inr ⟨p, rfl, traded name p hv⟩
    exact ⟨evaluate_onTradingDates rfl onDates, evaluate_onTradingDates rfl onDates⟩

end Formula

/-! ## Two days of trading, and one of them only -/

namespace Calendars

def tuesday : Date := ⟨2023, 5, 2, by decide⟩

def wednesday : Date := ⟨2023, 5, 3, by decide⟩

def close : Panel := ⟨[tuesday, wednesday], ["A", "B"], #[5, 7, 8, 6], rfl⟩

/-- Trading on the given dates, and one report that nobody has announced. -/
def trading (dates : List Date) : TradingCalendar := ⟨⟨["A", "B"], [[none, none]]⟩, dates⟩

def bindings : Bindings Empty := ⟨[("close", .panel close)]⟩

/-- `Delta(close, 1)` -/
def change : Program :=
  [.var "Delta", .var "close", .literal (.number 1), .binary ",", .call]

/-- `Rank(close)` -/
def ranked : Program := [.var "Rank", .var "close", .call]

theorem get?_bindings_panel {name : String} {value : Value Empty}
    (h : bindings.get? name = some value) : value = .panel close := by
  simp only [Bindings.get?, bindings, List.lookup_cons] at h
  split at h
  · exact (Option.some.inj h).symm
  · cases h

theorem over_bindings : bindings.Over fun _ => True :=
  fun _ _ h => .inr ⟨close, get?_bindings_panel h, trivial⟩

end Calendars

open Calendars in
/-- Changes do not ask for the calendar, even if it is of other dates and could not be used; ranks
do, but both days are days of trading. -/
theorem Formula.evaluate_calendar_days : (∃ p,
      evaluate ⟨change, Vocabulary.builtin .upper⟩ bindings .never = .ok (.panel p) ∧
        evaluate ⟨change, Vocabulary.builtin .upper⟩ bindings (.whenNeeded (trading [wednesday])) =
          .ok (.panel p)) ∧
    ∃ p, evaluate ⟨ranked, Vocabulary.builtin .upper⟩ bindings
        (.always (trading [tuesday, wednesday])) = .ok (.panel p) ∧
      evaluate ⟨ranked, Vocabulary.builtin .upper⟩ bindings .never = .ok (.panel p) := by
  constructor
  · obtain ⟨p, hp⟩ : ∃ p, evaluate ⟨change, Vocabulary.builtin .upper⟩ bindings .never =
        .ok (.panel p) := ⟨_, rfl⟩
    have unranked : ∀ f : Builtin, f.Ranks → .var (CaseStyle.upper.spell f.name) ∉ change := by
      intro f hf
      cases f with
      | rank | groupRank | conditionRank => decide
      | _ => cases hf
    exact ⟨p, hp, (evaluate_calendar over_bindings (trading [wednesday])).1 unranked _ hp⟩
  · obtain ⟨p, hp⟩ : ∃ p, evaluate ⟨ranked, Vocabulary.builtin .upper⟩ bindings
        (.always (trading [tuesday, wednesday])) = .ok (.panel p) := ⟨_, rfl⟩
    have traded : ∀ name p, bindings.get? name = some (.panel p) →
        p.dates = (trading [tuesday, wednesday]).tradeDates := by
      intro name p h
      cases get?_bindings_panel h
      rfl
    exact ⟨p, hp, ((evaluate_calendar over_bindings _).2 traded).2.trans hp⟩

end PanelCalc
