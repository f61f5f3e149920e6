import PanelCalc.Formula.Builder

/-! # What a builder does with one lexeme

A builder that accepts a lexeme does one of ten things, depending on the lexeme
and on what it expects. Everything that it keeps, whatever lexemes it is given,
is shown for these ten. -/
namespace PanelCalc

/-- The step of a lexeme that is an operand, and what is expected after it. -/
def Lexeme.operand? : Lexeme → Option (Step × Expectation)
  | number x | constant x => some (.literal (.number x), .afterLiteral)
  | text s => some (.literal (.text s), .afterLiteral)
  | identifier name => some (.var name, .afterCallable)
  | operator _ | namedUnary _ | openParen | closeParen | comma => none

/-- An operand ends with itself. -/
theorem Lexeme.endsOperand_of_operand? {l : Lexeme} {step : Step} {e : Expectation}
    (h : l.operand? = some (step, e)) : e.endsOperand := by
  cases l <;> cases h <;> rfl

theorem Expectation.beginsOperand_eq_false {e : Expectation} (h : e.endsOperand) :
    e.beginsOperand = false := by
  cases e <;> first | rfl | cases h

theorem Expectation.endsOperand_eq_false {e : Expectation}
    (h : e.beginsOperand ∨ e = .group) : e.endsOperand = false := by
  cases e <;> first | rfl | simp [Expectation.beginsOperand] at h

namespace Builder

/-- A builder that accepts a lexeme becomes another one. -/
inductive Accepts (g : Grammar) (b : Builder) : Lexeme → Builder → Prop
  | operand {l step e} : b.expected.beginsOperand → l.operand? = some (step, e) →
      Accepts g b l ({ b with started := true }.operand step e)
  | plus : b.expected.beginsOperand →
      Accepts g b (.operator "+") { b with started := true, expected := .operand }
  | minus {p} : b.expected.beginsOperand → g.unaryPriority? "-" = some p →
      Accepts g b (.operator "-") ({ b with started := true }.opener "-" p .operand)
  | named {name p} : b.expected.beginsOperand → g.unaryPriority? name = some p →
      Accepts g b (.namedUnary name) ({ b with started := true }.opener name p .group)
  | operator {s p} : b.expected.endsOperand → g.binaryPriority? s = some p →
      Accepts g b (.operator s) ({ b with started := true }.join (.binary s) p .operand)
  | comma : b.expected.endsOperand → b.depth ≠ 0 →
      Accepts g b .comma ({ b with started := true }.join (.binary ",")
        ((g.binaryPriority? ",").getD Priority.comma) .operand)
  | call : b.expected = .afterCallable →
      Accepts g b .openParen
        ({ b with started := true, depth := b.depth + 1 }.join .call Priority.call .argument)
  | opened : b.expected.beginsOperand ∨ b.expected = .group →
      Accepts g b .openParen { b with started := true, depth := b.depth + 1, expected := .operand }
  | emptyCall : b.expected = .argument →
      Accepts g b .closeParen ({ b with started := true, depth := b.depth - 1 }.operand
        (.literal .noArguments) .afterCallable)
  | closed : b.expected.endsOperand → b.depth ≠ 0 →
      Accepts g b .closeParen
        { b with started := true, depth := b.depth - 1, expected := .afterCallable }

variable {g : Grammar} {b b' : Builder} {l : Lexeme} {fault : ParseFault}

theorem accepts_of_acceptOperator {s : String}
    (h : acceptOperator g { b with started := true } s = .ok b') : Accepts g b (.operator s) b' := by
  simp only [acceptOperator, Bool.and_eq_true, beq_iff_eq] at h
  split at h
  · rename_i hplus
    obtain ⟨begins, rfl⟩ := hplus
    cases h
    exact .plus begins
  split at h
  · rename_i hminus
    obtain ⟨begins, rfl⟩ := hminus
    cases hp : g.unaryPriority? "-" with
    | none => simp [hp] at h
    | some p =>
      rw [hp] at h
      cases h
      exact .minus begins hp
  split at h
  · rename_i ends
    cases hp : g.binaryPriority? s with
    | none => simp [hp] at h
    | some p =>
      rw [hp] at h
      cases h
      exact .operator ends hp
  · cases h

theorem accepts_of_acceptOpen (h : acceptOpen { b with started := true } = .ok b') :
    Accepts g b .openParen b' := by
  cases hx : b.expected with
  | afterCallable =>
    simp only [acceptOpen, hx] at h
    cases h
    exact .call hx
  | afterLiteral =>
    simp only [acceptOpen, hx] at h
    cases h
  | operand | argument | group =>
    simp only [acceptOpen, hx] at h
    cases h
    exact .opened (by simp [hx, Expectation.beginsOperand])

theorem accepts_of_acceptClose (h : acceptClose { b with started := true } = .ok b') :
    Accepts g b .closeParen b' := by
  cases hx : b.expected with
  | argument =>
    simp only [acceptClose, hx] at h
    cases h
    exact .emptyCall hx
  | operand | group =>
    simp only [acceptClose, hx] at h
    cases h
  | afterLiteral | afterCallable =>
    simp only [acceptClose, hx] at h
    split at h
    · cases h
    · cases h
      exact .closed (by rw [hx]; rfl) ‹_›

theorem accepts_of_acceptComma (h : acceptComma g { b with started := true } = .ok b') :
    Accepts g b .comma b' := by
  simp only [acceptComma, Bool.and_eq_true, bne_iff_ne] at h
  split at h
  · rename_i hc
    cases h
    exact .comma hc.1 hc.2
  · cases h

/-- The possible ways on are all that accepting a lexeme can do. -/
theorem accepts_of_ok (h : b.accept g l = .ok b') : Accepts g b l b' := by
  cases l with
  | operator s => exact accepts_of_acceptOperator h
  | number | constant | text | identifier =>
    simp only [accept] at h
    split at h
    · cases h
      exact .operand ‹_› rfl
    · cases h
  | namedUnary name =>
    simp only [accept] at h
    split at h
    · rename_i begins
      cases hp : g.unaryPriority? name with
      | none => simp [hp] at h
      | some p =>
        rw [hp] at h
        cases h
        exact .named begins hp
    · cases h
  | openParen => exact accepts_of_acceptOpen h
  | closeParen => exact accepts_of_acceptClose h
  | comma => exact accepts_of_acceptComma h

/-- A lexeme is accepted in each of these ways. -/
theorem Accepts.accept (h : Accepts g b l b') : b.accept g l = .ok b' := by
  cases h with
  | @operand l _ _ begins hl =>
    cases l with
    | number | constant | text | identifier =>
      cases hl
      simp only [Builder.accept, begins]
      rfl
    | _ => cases hl
  | plus begins =>
    simp only [Builder.accept, acceptOperator, begins]
    rfl
  | minus begins hp =>
    simp only [Builder.accept, acceptOperator, begins, hp]
    rfl
  | named begins hp =>
    simp only [Builder.accept, begins, hp]
    rfl
  | operator ends hp =>
    simp only [Builder.accept, acceptOperator, Expectation.beginsOperand_eq_false ends, ends, hp]
    rfl
  | comma ends hd =>
    simp only [Builder.accept, acceptComma, ends, Bool.true_and, bne_iff_ne, ne_eq, hd,
      not_false_eq_true, if_true]
  | call hx => simp only [Builder.accept, acceptOpen, hx]
  | opened hx =>
    cases he : b.expected with
    | operand | argument | group => simp only [Builder.accept, acceptOpen, he]
    | _ => simp [he, Expectation.beginsOperand] at hx
  | emptyCall hx => simp only [Builder.accept, acceptClose, hx]
  | closed ends hd =>
    cases he : b.expected with
    | afterLiteral | afterCallable => simp only [Builder.accept, acceptClose, he, if_neg hd]
    | _ => rw [he] at ends; cases ends

theorem accept_eq_ok : b.accept g l = .ok b' ↔ Accepts g b l b' :=
  ⟨accepts_of_ok, Accepts.accept⟩

/-- Whatever has been accepted, the builder has started. -/
theorem Accepts.started (h : Accepts g b l b') : b'.started := by
  cases h <;> rfl

/-- A lexeme is never refused for lack of balance. -/
theorem accept_ne_parity {operands joins : Nat} :
    b.accept g l ≠ .error (.parity operands joins) := by
  cases l <;> simp only [accept, acceptOperator, acceptOpen, acceptClose, acceptComma] <;> grind

end Builder

end PanelCalc
