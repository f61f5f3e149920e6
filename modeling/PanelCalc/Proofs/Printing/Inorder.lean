import PanelCalc.Proofs.Printing.Brackets

/-! # The order of a tree

Reading keeps the order of the lexemes. Apart from parentheses and from a plus,
which may stand before an operand without being kept, every lexeme becomes a
node of the tree, operands to the left of it before and those to the right of it
after it. -/
namespace PanelCalc

/-- What a lexeme is kept as, wherever an operator stands. -/
def Lexeme.kept : Lexeme → List Lexeme
  | operator s | namedUnary s => if s = "+" then [] else [operator s]
  | comma => [operator ","]
  | openParen | closeParen => []
  | constant x => [number x]
  | l => [l]

/-- What is kept of the lexemes that a tree is read from. -/
def Tree.kept : Tree → List Lexeme
  | literal (.number x) => [.number x]
  | literal (.text s) => [.text s]
  | literal .noArguments => []
  | name n => [.identifier n]
  | unary s x => (Lexeme.operator s).kept ++ x.kept
  | binary s x y => x.kept ++ (Lexeme.operator s).kept ++ y.kept
  | call callee x => callee.kept ++ x.kept

/-- What is kept of the tree that a goal starts from. -/
def Goal.kept (goal : Goal) : List Lexeme := (goal.given.map Tree.kept).getD []

/-- Reading keeps everything in its order. -/
theorem Reads.kept {g : Grammar} {goal : Goal} {ls rest : List Lexeme} {t : Tree}
    (h : Reads g goal ls t rest) :
    t.kept ++ rest.flatMap Lexeme.kept = goal.kept ++ ls.flatMap Lexeme.kept := by
  induction h with
  | plus _ ih => simpa [Goal.kept, Goal.given, Lexeme.kept] using ih
  | minus _ _ ih | named _ _ ih =>
    simp only [Goal.kept, Goal.given, Option.map_none, Option.getD_none, List.nil_append] at ih ⊢
    rw [Tree.kept, List.append_assoc, ih]
    rfl
  | number | constant | text => rfl
  | called _ | joined _ | listed _ => rfl
  | identifier _ ih | group _ _ ih ih' | emptyCall _ ih | call _ _ ih ih' | chain _ _ ih ih'
  | list _ _ ih ih' | join _ _ _ _ ih ih' | item _ _ ih ih' =>
    simp_all [Goal.kept, Goal.given, Tree.kept, Lexeme.kept]

/-- Lexemes between parentheses are kept without them. -/
@[simp] theorem kept_enclosed (ls : List Lexeme) :
    (enclosed ls).flatMap Lexeme.kept = ls.flatMap Lexeme.kept := by
  simp [enclosed, Lexeme.kept]

@[simp] theorem kept_unaryLexeme (s : String) :
    (unaryLexeme s).kept = (Lexeme.operator s).kept := by
  unfold unaryLexeme
  split <;> rfl

/-- The text of a tree keeps its order. -/
theorem Tree.kept_lexemes (t : Tree) : t.lexemes.flatMap Lexeme.kept = t.spelledOut.kept := by
  induction t with
  | literal value =>
    cases value with
    | number x =>
      simp only [lexemes, numberLexemes, spelledOut]
      split <;> simp [Lexeme.kept, kept]
    | text s | noArguments => rfl
  | name n => rfl
  | unary s x ih =>
    simp only [lexemes, spelledOut, kept]
    split <;> simp [ih]
  | binary s x y ihx ihy =>
    simp only [lexemes, spelledOut, kept]
    split
    · rename_i hs
      simp [ihx, ihy, hs, Lexeme.kept]
    · simp [ihx, ihy]
  | call callee x ihc ihx => simp [lexemes, spelledOut, kept, ihc, ihx]

end PanelCalc
