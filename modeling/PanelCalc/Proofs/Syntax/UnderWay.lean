import PanelCalc.Proofs.Formula.Heights
import PanelCalc.Proofs.Syntax.Settling

/-! # The height of a program under way

The settled steps of a builder leave as many values as its waiting operators
will use up, and one more where an operand has ended. This is so whatever the
priorities are, and also where they wrap around: they decide when an operator
leaves, but not what it takes. So every program that is built is well formed. -/
namespace PanelCalc.Builder

variable {g : Grammar} {b b' : Builder} {l : Lexeme} {ls : List Lexeme} {step : Step}
  {w : List (Step × Int32)} {output : List Step} {height : Nat}

/-- The number of values that operators use up. -/
def uses : List (Step × Int32) → Nat
  | [] => 0
  | entry :: w => entry.1.takes - 1 + uses w

/-- Only operators wait, and the settled steps leave what they use up. -/
structure Upright (b : Builder) : Prop where
  operators : ∀ entry ∈ b.waiting, entry.1.takes ≠ 0
  height : Program.height? b.output.reverse =
    some (uses b.waiting + if b.expected.endsOperand then 1 else 0)

theorem upright_start : start.Upright := ⟨by simp [start], rfl⟩

/-- An operator leaves one value in place of those that it takes. -/
theorem height?_operator (ht : step.takes ≠ 0)
    (h : Program.height? output.reverse = some (step.takes - 1 + height + 1)) :
    Program.height? (step :: output).reverse = some (height + 1) := by
  rw [Program.height?_reverse_cons, h]
  show Step.height? (step.takes - 1 + height + 1) step = _
  rw [Step.height?, if_pos (by omega), Option.some.injEq]
  omega

/-- An operand adds a value. -/
theorem height?_operand (ht : step.takes = 0) (h : Program.height? output.reverse = some height) :
    Program.height? (step :: output).reverse = some (height + 1) := by
  rw [Program.height?_reverse_cons, h]
  show Step.height? height step = _
  rw [Step.height?, ht, if_pos (Nat.zero_le _), Nat.sub_zero]

/-- Whatever leaves first, what is left to wait uses up what is left. -/
theorem height?_settle (p : Int32) (hw : ∀ entry ∈ w, entry.1.takes ≠ 0)
    (h : Program.height? output.reverse = some (uses w + 1)) :
    (∀ entry ∈ (settle p w output).1, entry.1.takes ≠ 0) ∧
      Program.height? (settle p w output).2.reverse = some (uses (settle p w output).1 + 1) := by
  fun_induction settle p w output with
  | case1 output => exact ⟨hw, h⟩
  | case2 output step top w _ => exact ⟨hw, h⟩
  | case3 output step top w _ ih =>
    obtain ⟨hstep, hw⟩ := List.forall_mem_cons.mp hw
    exact ih hw (height?_operator hstep h)

/-- In the end all that waits leaves. -/
theorem height?_finish (hw : ∀ entry ∈ w, entry.1.takes ≠ 0)
    (h : Program.height? output.reverse = some (uses w + 1)) :
    Program.height? (output.reverse ++ w.map (·.1)) = some 1 := by
  induction w generalizing output with
  | nil => simpa [uses] using h
  | cons entry w ih =>
    obtain ⟨hentry, hw⟩ := List.forall_mem_cons.mp hw
    rw [List.map_cons, List.append_cons, ← List.reverse_cons]
    exact ih hw (height?_operator hentry h)

/-- An operand takes nothing from the stack. -/
theorem takes_of_operand? {e : Expectation} (h : l.operand? = some (step, e)) :
    step.takes = 0 := by
  cases l <;> cases h <;> rfl

namespace Upright

theorem of_begins (hb : b.Upright) (he : b.expected.endsOperand = false) :
    Program.height? b.output.reverse = some (uses b.waiting) := by
  simpa [he] using hb.height

theorem of_ends (hb : b.Upright) (he : b.expected.endsOperand) :
    Program.height? b.output.reverse = some (uses b.waiting + 1) := by
  simpa [he] using hb.height

theorem operand (hb : b.Upright) (he : b.expected.beginsOperand) (ht : step.takes = 0)
    {e : Expectation} (hx : e.endsOperand) : (b.operand step e).Upright := by
  refine ⟨hb.operators, ?_⟩
  simp only [Builder.operand, hx, if_true]
  exact height?_operand ht (hb.of_begins (Expectation.endsOperand_eq_false (.inl he)))

theorem opener (hb : b.Upright) (he : b.expected.beginsOperand) (s : String) (p : Int)
    {e : Expectation} (hx : e.endsOperand = false) : (b.opener s p e).Upright := by
  refine ⟨List.forall_mem_cons.mpr ⟨nofun, hb.operators⟩, ?_⟩
  have := hb.of_begins (Expectation.endsOperand_eq_false (.inl he))
  simpa [Builder.opener, hx, uses, Step.takes] using this

theorem join (hb : b.Upright) (he : b.expected.endsOperand) (ht : step.takes = 2) (p : Int)
    {e : Expectation} (hx : e.endsOperand = false) : (b.join step p e).Upright := by
  obtain ⟨operators, height⟩ :=
    height?_settle (Priority.atDepth p b.depth) hb.operators (hb.of_ends he)
  refine ⟨List.forall_mem_cons.mpr ⟨by simp [ht], operators⟩, ?_⟩
  simpa [Builder.join, hx, uses, ht, Nat.add_comm] using height

/-- Whatever is accepted keeps the height. -/
theorem accept (hb : b.Upright) (h : Accepts g b l b') : b'.Upright := by
  have begun (depth : Int32) : { b with started := true, depth }.Upright :=
    ⟨hb.operators, hb.height⟩
  cases h with
  | operand begins hl =>
    exact (begun _).operand begins (takes_of_operand? hl) (Lexeme.endsOperand_of_operand? hl)
  | plus begins =>
    have hheight := hb.of_begins (Expectation.endsOperand_eq_false (.inl begins))
    exact ⟨hb.operators, by simpa [Expectation.endsOperand] using hheight⟩
  | minus begins _ | named begins _ => exact (begun _).opener begins _ _ rfl
  | operator ends _ | comma ends _ => exact (begun _).join ends rfl _ rfl
  | call hx => exact (begun _).join (by rw [hx]; rfl) rfl _ rfl
  | opened hx =>
    exact ⟨hb.operators, hb.of_begins (Expectation.endsOperand_eq_false hx)⟩
  | emptyCall hx => exact (begun _).operand (by rw [hx]; rfl) rfl rfl
  | closed ends _ => exact ⟨hb.operators, hb.of_ends ends⟩

/-- **Every program that is built is well formed.** -/
theorem run (hb : b.Upright) {program : Program} (h : b.run g ls = .ok program) :
    program.WellFormed := by
  induction ls generalizing b with
  | nil =>
    obtain ⟨-, -, ends, -, rfl⟩ := finish_eq_ok.mp h
    exact height?_finish hb.operators (hb.of_ends ends)
  | cons l ls ih =>
    obtain ⟨next, ha, h⟩ := run_cons_eq_ok.mp h
    exact ih (hb.accept (accept_eq_ok.mp ha)) h

end Upright

end PanelCalc.Builder
