import PanelCalc.Proofs.Evaluation.PanelMaps
import PanelCalc.Proofs.Evaluation.SideBySide
import PanelCalc.Proofs.Panel.Cuts

/-! # Later rows have no effect on earlier ones

Among panels on one list of dates, what a formula makes of the first rows is the
first rows of what it makes of all. `Step` alone looks at the length of a
history: it counts up to its last cell. -/
namespace PanelCalc

variable {dates : List Date} {k : Nat}

/-- A panel on the given dates and the panel of its first rows. -/
structure Panel.CutAt (dates : List Date) (k : Nat) (p q : Panel) : Prop where
  dates : p.dates = dates
  cut : q = p.cut k

/-- All but `Step` do to the first cells of a history what they do to them alone. -/
theorem HistoryFunction.prefixing {f : List Float → List Float}
    (h : HistoryFunction (· ≠ .step) f) : Series.Prefixing f := by
  cases h with
  | rolling positive reduce => exact Series.prefixing_rolling positive reduce
  | shifted n f => exact Series.prefixing_shifted n f
  | countUpTo last h => exact absurd rfl h

/-- Panels on one list of dates need no alignment. -/
theorem Panel.CutAt.conform {reference reference' p q : Panel}
    (hr : Panel.CutAt dates k reference reference') (h : Panel.CutAt dates k p q) :
    Alike (Panel.CutAt dates k) (Alignment.never.conform reference p)
      (Alignment.never.conform reference' q) := by
  obtain ⟨hrd, rfl⟩ := hr
  obtain ⟨hd, rfl⟩ := h
  refine Alignment.conform_follows ?_ ?_
  · have hsame := hd.trans hrd.symm
    rw [Alignment.conformDates_self hsame, Alignment.conformDates_self (congrArg (·.take k) hsame)]
    exact .ok ⟨hd, rfl⟩
  · rintro x _ ⟨hx, rfl⟩
    unfold Alignment.inOrder
    by_cases hs : x.symbols = reference.symbols
    · rw [if_pos hs, if_pos (show (x.cut k).symbols = (reference.cut k).symbols from hs)]
      exact .ok ⟨hx, rfl⟩
    · rw [if_neg hs, if_neg (show (x.cut k).symbols ≠ (reference.cut k).symbols from hs)]
      rw [show (reference.cut k).symbols = reference.symbols from rfl, Panel.reorder_cut]
      cases ho : x.reorder reference.symbols with
      | error e => exact .error
      | ok y => exact .ok ⟨(Panel.reorder_ok ho).1.trans hx, rfl⟩

/-- **Cutting panels is a simulation.** -/
theorem Simulation.cut (dates : List Date) (k : Nat) :
    Simulation True (· ≠ .step) (Panel.CutAt dates k) .never .never where
  shorter := by
    rintro p _ p' _ ⟨hd, rfl⟩ ⟨hd', rfl⟩
    have hrows : p.rows = p'.rows := by rw [Panel.rows, Panel.rows, hd, hd']
    rw [Panel.rows_cut, Panel.rows_cut, hrows]
    omega
  prepare h := .ok h
  conform hr h := hr.conform h
  rebase _ _ h := .ok h
  cells := by
    rintro p _ xs ys f ⟨hd, rfl⟩ hs
    refine ⟨hd, Panel.cut_remap fun row col hr hc => ?_⟩
    refine congrArg f (Operand.map_cell_congr hs ?_).symm
    rintro x _ ⟨⟨hx, rfl⟩, hl, -⟩
    refine (Panel.cell_cut ?_ ?_).symm
    · rwa [Panel.rows_cut, Panel.rows, hl.dates, ← Panel.rows, ← Panel.rows_cut]
    · rwa [Panel.cols, hl.symbols]
  histories := by
    rintro f p _ hf ⟨hd, rfl⟩
    exact ⟨hd, Panel.cut_mapColumns fun col _ => hf.prefixing _ _⟩
  pairs := by
    rintro n p _ p' _ reduce positive ⟨hd, rfl⟩ ⟨-, rfl⟩ hi -
    refine ⟨hd, Panel.cut_mapColumns fun col hc => ?_⟩
    rw [Panel.colCells_cut (by rwa [Panel.cols, hi.symbols]), Series.rollingPair_take positive]
  ranks := by
    rintro p _ - ⟨hd, rfl⟩ - -
    exact ⟨hd, Panel.cut_mapRows fun row _ => rfl⟩
  ranksBy := by
    rintro f p _ p' _ - ⟨hd, rfl⟩ - - ⟨⟨-, rfl⟩, hl, -⟩
    refine ⟨hd, Panel.cut_mapRows fun row hr => ?_⟩
    rw [Panel.rowCells_cut]
    rwa [Panel.rows_cut, Panel.rows, hl.dates, ← Panel.rows, ← Panel.rows_cut]

variable {H : Type} {b : Bindings H}

/-- **Later rows have no effect on earlier ones.** Over scalars and panels on one
list of dates, a formula that does not name `Step` makes of the first rows of all
panels the first rows of what it makes of the panels, or the same error. -/
theorem Formula.evaluate_cut [HostFunctions H] {caseStyle : CaseStyle} {program : Program}
    (hp : .var (caseStyle.spell Builtin.step.name) ∉ program)
    (hb : ∀ name value, b.get? name = some value →
      (∃ x, value = .scalar x) ∨ ∃ p, value = .panel p ∧ p.dates = dates) (k : Nat) :
    evaluate ⟨program, Vocabulary.builtin caseStyle⟩ (b.mapPanels (Panel.cut k)) .never =
      (evaluate ⟨program, Vocabulary.builtin caseStyle⟩ b .never).map
        (Value.mapPanels (Panel.cut k)) := by
  have matched : b.Matches (· ≠ .step) (Panel.CutAt dates k) (b.mapPanels (Panel.cut k)) := by
    intro name
    rw [Bindings.get?_mapPanels]
    cases hv : b.get? name with
    | none => exact .none
    | some value =>
      rcases hb name value hv with ⟨x, rfl⟩ | ⟨p, rfl, hd⟩
      · exact .some (.scalar x)
      · exact .some (.panel ⟨hd, rfl⟩)
  have named : program.Allowed caseStyle (· ≠ .step) := by
    rintro f hf rfl
    exact hp hf
  have h : Alike (Value.Matches (· ≠ .step) (Panel.CutAt dates k))
      (evaluate ⟨program, Vocabulary.builtin caseStyle⟩ b .never)
      (evaluate ⟨program, Vocabulary.builtin caseStyle⟩ (b.mapPanels (Panel.cut k)) .never) :=
    evaluate_follows (Simulation.cut dates k) matched named
  generalize evaluate ⟨program, Vocabulary.builtin caseStyle⟩ b .never = answer at h ⊢
  generalize evaluate ⟨program, Vocabulary.builtin caseStyle⟩ (b.mapPanels (Panel.cut k)) .never =
    answer' at h ⊢
  cases h with
  | ok h => exact congrArg Except.ok (h.eq_mapPanels fun p q hpq => hpq.cut)
  | error => rfl
  | failed h => exact absurd trivial h

/-! ## Two months of three -/

namespace Histories

def months : List Date :=
  [⟨2022, 1, 31, by decide⟩, ⟨2022, 2, 28, by decide⟩, ⟨2022, 3, 31, by decide⟩]

def volume : Panel := ⟨months, ["A", "B"], #[1, 2, 3, 4, 5, 6], rfl⟩

/-- The same securities the other way round. -/
def opening : Panel := ⟨months, ["B", "A"], #[6, 5, 4, 3, 2, 1], rfl⟩

def bindings : Bindings Empty := ⟨[("volume", .panel volume), ("opening", .panel opening)]⟩

/-- `Sum(volume, 2) - opening` -/
def excess : Program :=
  [.var "Sum", .var "volume", .literal (.number 2), .binary ",", .call, .var "opening", .binary "-"]

theorem get?_bindings_dates (name : String) (value : Value Empty)
    (h : bindings.get? name = some value) :
    (∃ x, value = .scalar x) ∨ ∃ p, value = .panel p ∧ p.dates = months := by
  simp only [Bindings.get?, bindings, List.lookup_cons] at h
  split at h
  · exact .inr ⟨volume, (Option.some.inj h).symm, rfl⟩
  split at h
  · exact .inr ⟨opening, (Option.some.inj h).symm, rfl⟩
  · cases h

end Histories

open Histories in
/-- The third month changes nothing of the first two. -/
theorem Formula.evaluate_cut_months : ∃ p,
    evaluate ⟨excess, Vocabulary.builtin .upper⟩ bindings .never = .ok (.panel p) ∧
      evaluate ⟨excess, Vocabulary.builtin .upper⟩ (bindings.mapPanels (Panel.cut 2)) .never =
        .ok (.panel (p.cut 2)) := by
  obtain ⟨p, hp⟩ : ∃ p,
      evaluate ⟨excess, Vocabulary.builtin .upper⟩ bindings .never = .ok (.panel p) := ⟨_, rfl⟩
  refine ⟨p, hp, ?_⟩
  rw [evaluate_cut (by decide) get?_bindings_dates 2, hp]
  rfl

end PanelCalc
