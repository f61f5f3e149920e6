import PanelCalc.Proofs.Syntax.Settling

/-! # Operands and operators balance

Every operand begins where one is expected, and everything that joins two
operands comes after one. So the operands of a builder outnumber what joins
them by one exactly where an operand has ended, whatever was accepted. -/
namespace PanelCalc.Builder

variable {g : Grammar} {b b' : Builder} {l : Lexeme} {ls : List Lexeme}

/-- The operands outnumber what joins them by one where an operand has ended, and
nowhere else. -/
def Balanced (b : Builder) : Prop :=
  b.operands = b.joins + if b.expected.endsOperand then 1 else 0

theorem Balanced.of_begins (hb : b.Balanced) (he : b.expected.beginsOperand) :
    b.operands = b.joins := by
  simpa [Balanced, Expectation.endsOperand_eq_false (.inl he)] using hb

theorem Balanced.of_ends (hb : b.Balanced) (he : b.expected.endsOperand) :
    b.operands = b.joins + 1 := by
  simpa [Balanced, he] using hb

theorem balanced_start : start.Balanced := rfl

theorem Balanced.operand (hb : b.Balanced) (he : b.expected.beginsOperand) (step : Step)
    {e : Expectation} (hx : e.endsOperand) : (b.operand step e).Balanced := by
  have := hb.of_begins he
  simp [Balanced, Builder.operand, hx, this]

theorem Balanced.join (hb : b.Balanced) (he : b.expected.endsOperand) (step : Step) (p : Int)
    {e : Expectation} (hx : e.endsOperand = false) : (b.join step p e).Balanced := by
  have := hb.of_ends he
  simp [Balanced, Builder.join, hx, this]

/-- Whatever is accepted keeps the balance. -/
theorem Balanced.accept (hb : b.Balanced) (h : Accepts g b l b') : b'.Balanced := by
  cases h with
  | operand begins hl =>
    exact operand (b := { b with started := true }) hb begins _ (Lexeme.endsOperand_of_operand? hl)
  | plus begins | minus begins _ | named begins _ => exact hb.of_begins begins
  | operator ends _ | comma ends _ =>
    exact join (b := { b with started := true }) hb ends _ _ rfl
  | call hx =>
    exact join (b := { b with started := true, depth := b.depth + 1 }) hb (by rw [hx]; rfl) _ _ rfl
  | opened hx =>
    rw [Balanced, Expectation.endsOperand_eq_false hx] at hb
    exact hb
  | emptyCall hx =>
    exact operand (b := { b with started := true, depth := b.depth - 1 }) hb (by rw [hx]; rfl) _ rfl
  | closed ends _ => exact hb.of_ends ends

/-- **The last check never fails**: whatever lexemes have been accepted, operands
and operators match where an operand has ended. -/
theorem Balanced.run_ne_parity (hb : b.Balanced) (operands joins : Nat) :
    b.run g ls ≠ .error (.parity operands joins) := by
  induction ls generalizing b with
  | nil =>
    intro h
    simp only [Builder.run, finish] at h
    split at h
    · cases h
    split at h
    · cases h
    split at h
    · cases h
    split at h
    · rename_i he hp
      exact hp (hb.of_ends (by simpa using he))
    · cases h
  | cons l ls ih =>
    cases ha : b.accept g l with
    | error fault =>
      rw [run_cons_error ha]
      intro h
      cases h
      exact accept_ne_parity ha
    | ok next =>
      rw [run_cons_ok ha]
      exact ih (hb.accept (accept_eq_ok.mp ha))

/-- Behind an operand it is enough to close the parentheses that are counted. All that
waits leaves at the end. -/
theorem Balanced.run_closers (hb : b.Balanced) (hs : b.started) (he : b.expected.endsOperand) :
    b.run g (.replicate b.depth.toInt.toNat .closeParen) =
      .ok (b.output.reverse ++ b.waiting.map (·.1)) := by
  induction hd : b.depth.toInt.toNat generalizing b with
  | zero =>
    have hdepth : ¬ 0 < b.depth := by
      rw [Int32.lt_iff_toInt_lt, Int32.toInt_zero]
      omega
    exact finish_eq_ok.mpr ⟨hs, hdepth, he, hb.of_ends he, rfl⟩
  | succ d ih =>
    have hdepth : b.depth ≠ 0 := by
      rw [ne_eq, ← Int32.toInt_inj, Int32.toInt_zero]
      omega
    have hless : (b.depth - 1).toInt = d := by
      have := b.depth.toInt_lt
      rw [Int32.toInt_sub, Int32.toInt_one, Int.bmod_eq_of_le] <;> omega
    have h := Accepts.closed (g := g) he hdepth
    rw [List.replicate_succ, run_cons_ok h.accept]
    exact ih (hb.accept h) rfl rfl (by simp only [hless, Int.toNat_natCast])

end PanelCalc.Builder
