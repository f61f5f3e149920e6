import PanelCalc.Proofs.Evaluation.Invariants
import PanelCalc.Proofs.Storage.Runs

/-! # Panels stay valid

Nothing that is computed is checked again: the dates and the securities of a
result are those of a panel that was there, or the dates that panels have been
aligned to, which have been checked. So what formulas give of valid panels is
valid, and no place outside a buffer is ever asked for on the way. -/
namespace PanelCalc

variable {a : Alignment} {p q : Panel}

/-- Panels on the index of a valid one are valid. -/
theorem Panel.Valid.of_indexedAs (hp : p.Valid) (h : q.IndexedAs p) : q.Valid :=
  ⟨h.dates ▸ hp.dates, h.symbols ▸ hp.symbols⟩

theorem Panel.Valid.align (hp : p.Valid) {announcements : Announcements} {days : List Date}
    (h : p.align announcements days = .ok q) : q.Valid := by
  obtain ⟨hdays, -⟩ := align_ok_iff.mp ⟨q, h⟩
  obtain ⟨-, hd, hs, -⟩ := align_ok h
  exact ⟨hd ▸ pairwise_of_checkDates hdays, hs ▸ hp.symbols⟩

theorem Panel.Valid.rebase (hp : p.Valid) (h : a.rebase p = .ok q) : q.Valid := by
  obtain ⟨-, rfl⟩ | ⟨_, -, -, h⟩ := Alignment.rebase_eq_ok.mp h
  · exact hp
  · exact hp.align h

theorem Panel.Valid.prepare (hp : p.Valid) (h : a.prepare p = .ok q) : q.Valid := by
  cases a with
  | always c => exact hp.rebase (a := .always c) h
  | never | whenNeeded _ =>
    cases h
    exact hp

/-- **Being valid is a simulation** of an evaluation by itself. -/
theorem Simulation.valid (a : Alignment) :
    Simulation True (fun _ => True) (Panel.Kept Panel.Valid) a a := by
  have same {x : Except ShapeError Panel} (h : ∀ y, x = .ok y → y.Valid) :
      Follows True (Panel.Kept Panel.Valid) x x :=
    (Follows.of_eq rfl).of_ok fun y _ hy _ hyz => ⟨hyz, h y hy⟩
  refine .kept (fun _ _ h hp => hp.of_indexedAs h) ?_ ?_ ?_
  · intro p hp
    exact same fun _ => hp.prepare
  · intro reference p _ _
    exact .of_eq rfl
  · intro _ p _ _ hp
    exact same fun _ => hp.rebase

namespace Formula

variable {H : Type} [HostFunctions H] {b : Bindings H}

/-- **Evaluations keep panels valid and stay within their buffers.** Over scalars
and valid panels, an evaluation that checks every place it reads or writes, and
the size of every buffer it makes a panel, gives what the formula gives and so
meets no fault; and all panels inside the value are valid, with a cell for each
date and security. -/
theorem evaluate_valid (h : a.Regular) (hb : b.Over Panel.Valid) (caseStyle : CaseStyle)
    (program : Program) :
    Storage.evaluate caseStyle program b a =
        Storage.lift (evaluate ⟨program, Vocabulary.builtin caseStyle⟩ b a) ∧
      ∀ value, evaluate ⟨program, Vocabulary.builtin caseStyle⟩ b a = .ok value →
        ∀ p ∈ value.panels, p.Valid ∧ p.values.size = p.rows * p.cols := by
  refine ⟨Storage.evaluate_eq h caseStyle program b, fun value hv p hp => ⟨?_, p.size_eq⟩⟩
  have kept : Follows True (fun x y => x = y ∧ ∀ p ∈ x.panels, p.Valid)
      (evaluate ⟨program, Vocabulary.builtin caseStyle⟩ b a)
      (evaluate ⟨program, Vocabulary.builtin caseStyle⟩ b a) :=
    evaluate_kept (Simulation.valid a) hb fun _ _ => trivial
  obtain ⟨_, -, -, hvalid⟩ := kept.exists_ok hv
  exact hvalid p hp

end Formula

/-! ## A panel without rows -/

namespace Unreported

def monday : Date := ⟨2023, 5, 8, by decide⟩

def tuesday : Date := ⟨2023, 5, 9, by decide⟩

def price : Panel := ⟨[monday, tuesday], ["A", "B"], #[3, 9, 2, 9], rfl⟩

/-- Nothing has been reported yet, of securities in another order. -/
def earnings : Panel := ⟨[], ["B", "A"], #[], rfl⟩

def bindings : Bindings Empty := ⟨[("price", .panel price), ("earnings", .panel earnings)]⟩

def calendar : TradingCalendar := ⟨⟨["A", "B"], []⟩, [monday, tuesday]⟩

/-- `Rank(price / earnings)` -/
def ratio : Program :=
  [.var "Rank", .var "price", .var "earnings", .binary "/", .call]

theorem over_bindings : bindings.Over Panel.Valid := by
  intro name value h
  simp only [Bindings.get?, bindings, List.lookup_cons] at h
  split at h
  · exact .inr ⟨price, (Option.some.inj h).symm, by decide, by decide⟩
  · split at h
    · exact .inr ⟨earnings, (Option.some.inj h).symm, by decide, by decide⟩
    · cases h

theorem regular_calendar : (Alignment.whenNeeded calendar).Regular := by
  intro c hc
  cases hc
  have checked : Announcements.ofRows ["A", "B"] [] = .ok calendar.announcements := rfl
  exact Announcements.regular_of_ofRows checked

end Unreported

open Unreported in
/-- The panel without rows is aligned and reordered, divides the prices and is ranked. -/
theorem Formula.evaluate_valid_unreported : ∃ p,
    evaluate ⟨ratio, Vocabulary.builtin .upper⟩ bindings (.whenNeeded calendar) =
        .ok (.panel p) ∧
      Storage.evaluate .upper ratio bindings (.whenNeeded calendar) = .ok (.panel p) ∧
        p.Valid ∧ p.values.size = p.rows * p.cols := by
  obtain ⟨p, hp⟩ : ∃ p, evaluate ⟨ratio, Vocabulary.builtin .upper⟩ bindings
      (.whenNeeded calendar) = .ok (.panel p) := ⟨_, rfl⟩
  obtain ⟨hstored, hvalid⟩ := evaluate_valid regular_calendar over_bindings .upper ratio
  rw [hp] at hstored
  exact ⟨p, hp, hstored, hvalid _ hp p (List.mem_singleton_self p)⟩

end PanelCalc
