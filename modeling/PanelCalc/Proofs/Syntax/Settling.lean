import PanelCalc.Proofs.Syntax.Accepting
import PanelCalc.Proofs.Syntax.Nesting
import PanelCalc.Proofs.Syntax.Reading

/-! # When a waiting operator may leave

The waiting operators of a builder are those of all open parentheses at once,
and priorities alone keep them apart: where these fit, an operator inside a
parenthesis outranks every operator outside of it, and a call outranks every
operator of the depth at which it is made. So the latest operator may leave
early, and the program of what follows stays the same, as soon as nothing comes
that binds more tightly. -/
namespace PanelCalc

/-- The priorities that a vocabulary may give to operators. -/
structure Grammar.Sound (g : Grammar) : Prop where
  unary : ∀ s p, g.unaryPriority? s = some p → 0 ≤ p ∧ p ≤ Priority.highest
  binary : ∀ s p, s ≠ "," → g.binaryPriority? s = some p → 0 ≤ p ∧ p ≤ Priority.highest
  comma : (g.binaryPriority? ",").getD Priority.comma = Priority.comma

namespace Grammar.Sound

variable {g : Grammar} {s : String} {p : Int}

theorem comma_le (hg : g.Sound) (h : g.binaryPriority? s = some p) : Priority.comma ≤ p := by
  by_cases hs : s = ","
  · subst hs
    have := hg.comma
    rw [h, Option.getD_some] at this
    exact Int.le_of_eq this.symm
  · exact Int.le_trans (by decide) (hg.binary s p hs h).1

theorem base_binary (hg : g.Sound) (h : g.binaryPriority? s = some p) : Priority.Base p := by
  by_cases hs : s = ","
  · subst hs
    have := hg.comma
    rw [h, Option.getD_some] at this
    exact this ▸ Priority.base_comma
  · obtain ⟨hle, hhighest⟩ := hg.binary s p hs h
    exact ⟨Int.le_trans (by decide) hle, hhighest⟩

theorem base_unary (hg : g.Sound) (h : g.unaryPriority? s = some p) : Priority.Base p :=
  ⟨Int.le_trans (by decide) (hg.unary s p h).1, (hg.unary s p h).2⟩

end Grammar.Sound

namespace Builder

variable {g : Grammar} {b : Builder} {d : Nat} {step : Step} {top : Int32}
  {w : List (Step × Int32)} {ls : List Lexeme}

/-- The program of a builder after more lexemes. -/
def run (g : Grammar) (b : Builder) : List Lexeme → Except ParseFault Program
  | [] => b.finish
  | lexeme :: lexemes => do run g (← b.accept g lexeme) lexemes

theorem run_cons_ok {b' : Builder} {l : Lexeme} (h : b.accept g l = .ok b') :
    b.run g (l :: ls) = b'.run g ls := by
  rw [run, h]
  rfl

theorem run_cons_error {f : ParseFault} {l : Lexeme} (h : b.accept g l = .error f) :
    b.run g (l :: ls) = .error f := by
  rw [run, h]
  rfl

theorem run_refused {f : ParseFault} {l : Lexeme} {program : Program}
    (h : b.accept g l = .error f) :
    b.run g (l :: ls) ≠ .ok program := by
  rw [run_cons_error h]
  simp

/-- A builder succeeds through each of its lexemes. -/
theorem run_cons_eq_ok {l : Lexeme} {program : Program} : b.run g (l :: ls) = .ok program ↔
    ∃ b', b.accept g l = .ok b' ∧ b'.run g ls = .ok program := by
  refine ⟨fun h => ?_, fun ⟨b', ha, h⟩ => (run_cons_ok ha).trans h⟩
  cases ha : b.accept g l with
  | error f => exact absurd h (run_refused ha)
  | ok b' => exact ⟨b', rfl, (run_cons_ok ha).symm.trans h⟩

/-- A builder succeeds at the end if an operand has just ended, no parenthesis
is open and every operator has found its operands. -/
theorem finish_eq_ok {program : Program} : b.finish = .ok program ↔
    b.started ∧ ¬ 0 < b.depth ∧ b.expected.endsOperand ∧ b.operands = b.joins + 1 ∧
      b.output.reverse ++ b.waiting.map (·.1) = program := by
  rw [finish]
  by_cases hs : b.started
  · by_cases hd : 0 < b.depth
    · simp only [hs, hd, not_true_eq_false, false_and, and_false, iff_false]
      exact nofun
    · by_cases he : b.expected.endsOperand
      · by_cases ho : b.operands = b.joins + 1 <;> simp [hs, hd, he, ho]
      · simp [hs, hd, he]
  · simp [hs]

theorem run_cons_congr {b' : Builder} {l : Lexeme} (h : b.accept g l = b'.accept g l) :
    b.run g (l :: ls) = b'.run g (l :: ls) := by
  rw [run, run, h]

/-- The builder with its latest waiting operator in the output. -/
def pop (b : Builder) (step : Step) (w : List (Step × Int32)) : Builder :=
  { b with output := step :: b.output, waiting := w }

/-- No waiting operator binds as tightly as a priority. -/
def Clear (b : Builder) (priority : Int) : Prop :=
  ∀ entry ∈ b.waiting.head?, entry.2.toInt < priority

theorem settle_of_clear {priority : Int32} (h : b.Clear priority.toInt) :
    settle priority b.waiting b.output = (b.waiting, b.output) := by
  cases hw : b.waiting with
  | nil => rfl
  | cons entry w =>
    have := h entry (by rw [hw]; rfl)
    rw [settle, if_pos (Int32.lt_iff_toInt_lt.mpr this)]

/-! ## Early leave of a waiting operator -/

theorem join_pop {next : Step} {p : Int} {e : Expectation} (hw : b.waiting = (step, top) :: w)
    (hp : Priority.atDepth p b.depth ≤ top) : b.join next p e = (b.pop step w).join next p e := by
  simp only [join, pop, hw]
  rw [settle, if_neg (Int32.not_lt.mpr hp)]

theorem finish_pop (hw : b.waiting = (step, top) :: w) : b.finish = (b.pop step w).finish := by
  simp [finish, pop, hw]

/-- An operator leaves early if the next lexeme makes it leave at once. -/
theorem accept_pop {l : Lexeme} (hw : b.waiting = (step, top) :: w) (he : b.expected.endsOperand)
    (hop : ∀ s p, l = .operator s → g.binaryPriority? s = some p →
      Priority.atDepth p b.depth ≤ top)
    (hcomma : l = .comma →
      Priority.atDepth ((g.binaryPriority? ",").getD Priority.comma) b.depth ≤ top)
    (hcall : b.expected = .afterCallable → l = .openParen →
      Priority.atDepth Priority.call (b.depth + 1) ≤ top)
    (hclose : l ≠ .closeParen) : b.accept g l = (b.pop step w).accept g l := by
  have begins := Expectation.beginsOperand_eq_false he
  cases l with
  | operator s =>
    simp only [accept, acceptOperator, pop, begins, he, Bool.false_and, Bool.false_eq_true,
      if_false, if_true]
    cases hp : g.binaryPriority? s with
    | none => rfl
    | some p =>
      exact congrArg Except.ok (join_pop (b := { b with started := true }) hw (hop s p rfl hp))
  | comma =>
    simp only [accept, acceptComma, pop, he, Bool.true_and]
    split
    · exact congrArg Except.ok (join_pop (b := { b with started := true }) hw (hcomma rfl))
    · rfl
  | openParen =>
    simp only [accept, acceptOpen, pop]
    cases hx : b.expected with
    | afterCallable =>
      exact congrArg Except.ok
        (join_pop (b := { b with started := true, depth := b.depth + 1 }) hw (hcall hx rfl))
    | afterLiteral => rfl
    | _ => rw [hx] at he; cases he
  | closeParen => exact absurd rfl hclose
  | _ => simp [accept, pop, begins]

theorem accept_close (he : b.expected.endsOperand) : b.accept g .closeParen =
    if b.depth = 0 then .error .unmatchedParenthesis
    else .ok { b with started := true, depth := b.depth - 1, expected := .afterCallable } := by
  cases hx : b.expected with
  | afterLiteral | afterCallable => simp only [accept, acceptClose, hx]
  | _ => rw [hx] at he; cases he

/-- An operator that binds as tightly as a call leaves once an operand has ended. -/
theorem run_pop_of_call_le (hg : g.Sound) (hb : b.At d) (hd : d + 1 ≤ Priority.deepest)
    (hw : b.waiting = (step, top) :: w) (he : b.expected.endsOperand)
    (ht : Priority.level Priority.call (d + 1) ≤ top.toInt) :
    b.run g ls = (b.pop step w).run g ls := by
  induction ls generalizing b d with
  | nil => exact finish_pop hw
  | cons l ls ih =>
    have outside {p : Int} (hp : Priority.Base p) : Priority.atDepth p b.depth ≤ top := by
      rw [Int32.le_iff_toInt_le, hb.toInt_atDepth hp]
      exact Int.le_trans (Int.le_of_lt (Priority.level_lt_call hp.le_highest)) ht
    by_cases hl : l = .closeParen
    · -- a closing parenthesis settles nothing, so the operator waits on at a lesser depth
      subst hl
      by_cases hz : b.depth = 0
      · rw [run_cons_error (by rw [accept_close he, if_pos hz]),
          run_cons_error (by rw [accept_close (b := b.pop step w) he, if_pos (by exact hz)])]
      · obtain ⟨n, rfl⟩ := Nat.exists_eq_succ_of_ne_zero (mt hb.depth_eq_zero.mpr hz)
        rw [run_cons_ok (by rw [accept_close he, if_neg hz]),
          run_cons_ok (by rw [accept_close (b := b.pop step w) he, if_neg (by exact hz)])]
        exact ih ⟨hb.depth_sub_one, by omega⟩ (by omega) hw rfl
          (Int.le_trans (Priority.call_le_call (by omega)) ht)
    · refine run_cons_congr (accept_pop hw he ?_ ?_ (fun _ _ => ?_) hl)
      · intro s p _ hp
        exact outside (hg.base_binary hp)
      · intro _
        rw [hg.comma]
        exact outside Priority.base_comma
      · rw [hb.depth_add_one, Int32.le_iff_toInt_le, Priority.toInt_atDepth Priority.base_call hd]
        exact ht

/-- An operator leaves if nothing comes that binds more tightly. -/
theorem run_pop_of_stops (hg : g.Sound) (hb : b.At d) {p : Int}
    (hw : b.waiting = (step, Priority.atDepth p b.depth) :: w) (he : b.expected = .afterLiteral)
    (hp : Priority.Base p) (hcomma : Priority.comma ≤ p) (hs : Stops g (p + 1) ls) :
    b.run g ls = (b.pop step w).run g ls := by
  have ends : b.expected.endsOperand := by rw [he]; rfl
  cases ls with
  | nil => exact finish_pop hw
  | cons l ls =>
    by_cases hl : l = .closeParen
    · subst hl
      by_cases hz : b.depth = 0
      · rw [run_cons_error (by rw [accept_close ends, if_pos hz]),
          run_cons_error (by rw [accept_close (b := b.pop step w) ends, if_pos (by exact hz)])]
      · obtain ⟨n, rfl⟩ := Nat.exists_eq_succ_of_ne_zero (mt hb.depth_eq_zero.mpr hz)
        have hn := hb.le_deepest
        rw [run_cons_ok (by rw [accept_close ends, if_neg hz]),
          run_cons_ok (by rw [accept_close (b := b.pop step w) ends, if_neg (by exact hz)])]
        refine run_pop_of_call_le hg ⟨hb.depth_sub_one, by omega⟩ hn hw rfl ?_
        rw [hb.toInt_atDepth hp]
        exact Priority.call_le_level hcomma
    · refine run_cons_congr (accept_pop hw ends ?_ ?_ ?_ hl)
      · intro s q hop hq
        have := hs s q ls (by rw [hop]) hq
        rw [hb.atDepth_le_atDepth (hg.base_binary hq) hp]
        omega
      · intro _
        rw [hg.comma, hb.atDepth_le_atDepth Priority.base_comma hp]
        exact hcomma
      · intro callable
        rw [he] at callable
        cases callable

end Builder

end PanelCalc
