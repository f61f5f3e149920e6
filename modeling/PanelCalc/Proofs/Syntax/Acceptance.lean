import PanelCalc.Proofs.Syntax.Balance
import PanelCalc.Proofs.Syntax.Building

/-! # Every phrase is accepted

What a builder refuses depends on what it expects and on the number of open
parentheses, never on the operators that wait. So each kind of phrase takes a
builder from one expectation to another, as long as the open parentheses can be
counted. -/
namespace PanelCalc

namespace Builder

variable {g : Grammar} {b : Builder}

/-- A builder that something between two operands has led on. -/
structure Joined (expected : Expectation) (depth : Int32) (b : Builder) : Prop where
  expected : b.expected = expected
  depth : b.depth = depth

end Builder

namespace Phrase

/-- Where a phrase may begin. -/
def Begins : Phrase → Builder → Prop
  | expr, b | operand, b => b.expected.beginsOperand
  | list, b => b.expected.beginsOperand ∧ b.depth ≠ 0
  | group, b => b.expected.beginsOperand ∨ b.expected = .group
  | calls, b => b.expected = .afterCallable ∧ b.started

/-- How a phrase leaves a builder. -/
def Leaves : Phrase → Builder → Prop
  | list, b | expr, b | operand, b => b.expected.endsOperand
  | group, b | calls, b => b.expected = .afterCallable

/-- A builder comes from one state to another by the lexemes of a phrase. -/
structure Passes (g : Grammar) (phrase : Phrase) (b : Builder) (ls : List Lexeme) (b' : Builder) :
    Prop where
  run : ∀ rest, b.run g (ls ++ rest) = b'.run g rest
  started : b'.started
  leaves : phrase.Leaves b'
  depth : b'.depth = b.depth

end Phrase

open Builder Phrase

namespace Phrase.Passes

variable {g : Grammar} {phrase first second whole : Phrase} {b b₁ b₂ b' : Builder} {l : Lexeme}
  {ls ls' : List Lexeme}

/-- A phrase that is one of another kind by itself. -/
theorem alone (h : phrase.Passes g b ls b') (leaves : whole.Leaves b') :
    whole.Passes g b ls b' :=
  ⟨h.run, h.started, leaves, h.depth⟩

/-- A phrase behind a sign or a name before an operand. -/
theorem behind (hl : b.accept g l = .ok b₁) (h : phrase.Passes g b₁ ls b')
    (depth : b₁.depth = b.depth) : phrase.Passes g b (l :: ls) b' where
  run rest := by rw [List.cons_append, run_cons_ok hl, h.run]
  started := h.started
  leaves := h.leaves
  depth := h.depth.trans depth

theorem append (h : first.Passes g b ls b₁) (h' : second.Passes g b₁ ls' b')
    (leaves : whole.Leaves b') : whole.Passes g b (ls ++ ls') b' where
  run rest := by rw [List.append_assoc, h.run, h'.run]
  started := h'.started
  leaves := leaves
  depth := h'.depth.trans h.depth

/-- Two phrases with something between them that joins their operands. -/
theorem join (h : first.Passes g b ls b₁) (hl : b₁.accept g l = .ok b₂)
    (hj : Joined .operand b₁.depth b₂) (h' : second.Passes g b₂ ls' b')
    (leaves : whole.Leaves b') : whole.Passes g b (ls ++ l :: ls') b' where
  run rest := by rw [List.append_assoc, h.run, List.cons_append, run_cons_ok hl, h'.run]
  started := h'.started
  leaves := leaves
  depth := h'.depth.trans (hj.depth.trans h.depth)

/-- A list and the parenthesis that closes it. -/
theorem run_closed {depth : Int32} (h : list.Passes g b ls b') (hd : b.depth = depth + 1)
    (hne : depth + 1 ≠ 0) (rest : List Lexeme) : b.run g (ls ++ .closeParen :: rest) =
      { b' with started := true, depth, expected := .afterCallable }.run g rest := by
  have hd' : b'.depth = depth + 1 := h.depth.trans hd
  rw [h.run, run_cons_ok (Accepts.closed h.leaves (by rw [hd']; exact hne)).accept, hd',
    Int32.add_sub_cancel]

/-- An operand of a single lexeme. -/
theorem literal {value : Literal} (hl : b.accept g l = .ok (b.put (.literal value))) :
    operand.Passes g b [l] (b.put (.literal value)) :=
  ⟨fun _ => run_cons_ok hl, rfl, rfl, rfl⟩

theorem group (h : list.Passes g b.inside ls b') (hb : Phrase.group.Begins b)
    (hne : b.depth + 1 ≠ 0) :
    Phrase.group.Passes g b (.openParen :: (ls ++ [.closeParen]))
      { b' with started := true, depth := b.depth, expected := .afterCallable } where
  run rest := by
    rw [List.cons_append, run_cons_ok (accept_openParen hb), List.append_assoc]
    exact h.run_closed rfl hne rest
  started := rfl
  leaves := rfl
  depth := rfl

theorem identifier {name : String} (hb : operand.Begins b)
    (h : calls.Passes g (b.putCallable (.name name)) ls b') :
    operand.Passes g b (.identifier name :: ls) b' where
  run rest := (run_identifier hb).trans (h.run rest)
  started := h.started
  leaves := by rw [Leaves, show b'.expected = _ from h.leaves]; rfl
  depth := h.depth

theorem emptyCall (hl : b.accept g .openParen = .ok b₁)
    (hj : Joined .argument (b.depth + 1) b₁)
    (h : calls.Passes g ({ b₁ with started := true, depth := b.depth }.putCallable
      (.literal .noArguments)) ls b') :
    calls.Passes g b (.openParen :: .closeParen :: ls) b' where
  run rest := by
    rw [← h.run, List.cons_append, List.cons_append, run_cons_ok hl,
      run_cons_ok (Accepts.emptyCall hj.expected).accept, hj.depth, Int32.add_sub_cancel]
    rfl
  started := h.started
  leaves := h.leaves
  depth := h.depth

theorem call (hl : b.accept g .openParen = .ok b₁) (hj : Joined .argument (b.depth + 1) b₁)
    (hne : b.depth + 1 ≠ 0) (h : list.Passes g b₁ ls b₂)
    (h' : calls.Passes g { b₂ with started := true, depth := b.depth, expected := .afterCallable }
      ls' b') :
    calls.Passes g b (.openParen :: (ls ++ .closeParen :: ls')) b' where
  run rest := by
    rw [← h'.run, List.cons_append, run_cons_ok hl, List.append_assoc]
    exact h.run_closed hj.depth hne _
  started := h'.started
  leaves := h'.leaves
  depth := h'.depth

end Phrase.Passes

/-- Behind a phrase as many parentheses are open as in front of it. -/
theorem Derives.depthAfter {g : Grammar} {phrase : Phrase} {ls : List Lexeme}
    (h : Derives g phrase ls) (d : Nat) : ls.foldl Lexeme.depthAfter d = d := by
  induction h generalizing d with
  | number | constant | text | uncalled => rfl
  | single _ ih | alone _ ih => exact ih d
  | plus _ ih | minus _ _ ih | identifier _ ih => exact ih d
  | comma _ _ ih ih' | binary _ _ _ ih ih' =>
    rw [List.foldl_append, ih]
    exact ih' d
  | grouped _ _ ih ih' => rw [List.foldl_append, ih, ih']
  | named _ _ _ ih ih' =>
    rw [List.foldl_cons, List.foldl_append, ih]
    exact ih' d
  | group _ ih =>
    rw [List.foldl_cons, List.foldl_append, ih]
    rfl
  | emptyCall _ ih => exact ih d
  | call _ _ ih ih' =>
    rw [List.foldl_cons, List.foldl_append, ih]
    exact ih' d

/-- What follows a phrase nests on its own. -/
theorem Derives.nestingFrom_append {g : Grammar} {phrase : Phrase} {ls rest : List Lexeme}
    (h : Derives g phrase ls) {d n : Nat} (hn : Lexeme.nestingFrom d (ls ++ rest) ≤ n) :
    Lexeme.nestingFrom d ls ≤ n ∧ Lexeme.nestingFrom d rest ≤ n := by
  rwa [Lexeme.nestingFrom_append, h.depthAfter, Nat.max_le] at hn

end PanelCalc
