import PanelCalc.Formula.Infix
import PanelCalc.Proofs.Printing.Spellable

/-! # The canonical text of a tree

The canonical text of a program is that of its tree, and consists of the
spellings of a few lexemes for each node. -/
namespace PanelCalc

/-- The canonical text of a tree. -/
def Tree.text : Tree → String
  | literal value => value.infixText
  | name n => n
  | unary s x => unaryText s x.text
  | binary s x y => binaryText s x.text y.text
  | call callee x => callee.text ++ "(" ++ x.text ++ ")"

theorem Tree.foldlM_write_postorder (t : Tree) (stack : List String) :
    t.postorder.foldlM Step.write stack = some (t.text :: stack) := by
  induction t generalizing stack with
  | literal _ | name _ => rfl
  | unary s x ih => simp [postorder, ih, Step.write, text]
  | binary s x y ihx ihy => simp [postorder, ihx, ihy, Step.write, text]
  | call callee x ihc ihx => simp [postorder, ihc, ihx, Step.write, text]

theorem Formula.text_eq {H : Type} {f : Formula H} {t : Tree} (h : f.program = t.postorder) :
    f.text = t.text := by
  simp [Formula.text, Program.infixText?, h, t.foldlM_write_postorder]

/-- The lexemes that a number is written with. -/
def numberLexemes (x : Float) : List Lexeme :=
  if x.isInf then enclosed [.number 1, .operator "/", .number 0] else [.number x]

/-- The lexeme of an operator before its operand. -/
def unaryLexeme (s : String) : Lexeme := if s = "-" then .operator s else .namedUnary s

/-- The lexemes of the canonical text. -/
def Tree.lexemes : Tree → List Lexeme
  | literal (.number x) => numberLexemes x
  | literal (.text s) => [.text s]
  | literal .noArguments => []
  | name n => [.identifier n]
  | unary s x =>
    if Text.hasLetter s then unaryLexeme s :: enclosed x.lexemes
    else enclosed (unaryLexeme s :: x.lexemes)
  | binary s x y =>
    if s = "," then x.lexemes ++ .comma :: y.lexemes
    else enclosed (x.lexemes ++ .operator s :: y.lexemes)
  | call callee x => callee.lexemes ++ enclosed x.lexemes

/-- The characters of lexemes that are spelled one after the other. -/
def spellings (ls : List Lexeme) : List Char := ls.flatMap Lexeme.spelling

@[simp] theorem spellings_nil : spellings [] = [] := rfl

@[simp] theorem spellings_cons (l : Lexeme) (ls : List Lexeme) :
    spellings (l :: ls) = l.spelling ++ spellings ls := rfl

@[simp] theorem spellings_append (ls ls' : List Lexeme) :
    spellings (ls ++ ls') = spellings ls ++ spellings ls' :=
  List.flatMap_append

@[simp] theorem spellings_enclosed (ls : List Lexeme) :
    spellings (enclosed ls) = '(' :: (spellings ls ++ [')']) := by
  simp [enclosed, Lexeme.spelling]

theorem toList_numberText {x : Float} (hx : Double.IsUnsigned x) :
    (numberText x).toList = spellings (numberLexemes x) := by
  unfold numberText numberLexemes
  rw [hx.1, hx.2]
  cases hi : x.isInf with
  | true =>
    rw [Double.eq_infinity hi hx.2]
    decide
  | false => simp [Lexeme.spelling]

theorem spelling_unaryLexeme (s : String) : (unaryLexeme s).spelling = s.toList := by
  unfold unaryLexeme
  split
  · rename_i h
    rw [h]
    decide
  · rfl

theorem unaryLexeme_of_hasLetter {s : String} (h : Text.hasLetter s = true) :
    unaryLexeme s = .namedUnary s := by
  refine if_neg ?_
  intro hs
  rw [hs] at h
  revert h
  decide

namespace Tree

variable {s : String} {x y callee : Tree}

theorem lexemes_infinite {x : Float} (h : x.isInf = true) :
    (literal (.number x)).lexemes = enclosed [.number 1, .operator "/", .number 0] := if_pos h

theorem lexemes_finite {x : Float} (h : x.isInf = false) :
    (literal (.number x)).lexemes = [.number x] := by
  simp [lexemes, numberLexemes, h]

theorem lexemes_named (h : Text.hasLetter s = true) :
    (unary s x).lexemes = unaryLexeme s :: enclosed x.lexemes := if_pos h

theorem lexemes_signed (h : Text.hasLetter s = false) :
    (unary s x).lexemes = enclosed (unaryLexeme s :: x.lexemes) := by
  simp [lexemes, h]

theorem lexemes_joined (h : s ≠ ",") :
    (binary s x y).lexemes = enclosed (x.lexemes ++ .operator s :: y.lexemes) := if_neg h

/-- A call and what comes next, put together from the right. -/
theorem lexemes_call_append (rest : List Lexeme) : (call callee x).lexemes ++ rest =
    callee.lexemes ++ .openParen :: (x.lexemes ++ .closeParen :: rest) := by
  simp [lexemes, enclosed]

end Tree

/-- The canonical text spells the lexemes of the tree. -/
theorem Tree.toList_text {H : Type} {v : Vocabulary H} {t : Tree} (ht : t.Spellable v) :
    t.text.toList = spellings t.lexemes := by
  induction t with
  | literal value =>
    cases value with
    | number x => exact toList_numberText ht
    | text s => simp [text, Literal.infixText, lexemes, Lexeme.spelling]
    | noArguments => exact absurd ht id
  | name n => simp [text, lexemes, Lexeme.spelling]
  | unary s x ih =>
    have hx := ih ht.2.2
    unfold text unaryText lexemes
    split <;> simp [hx, spelling_unaryLexeme]
  | binary s x y ihx ihy =>
    have hx := ihx ht.2.1
    have hy := ihy ht.2.2
    unfold text binaryText lexemes
    split
    · simp [hx, hy, Lexeme.spelling]
    · split <;> rename_i hs <;> simp [hx, hy, Lexeme.spelling, hs]
  | call callee x ihc ihx =>
    have hc := ihc ht.1
    unfold text lexemes
    rcases ht.2 with rfl | hx
    · simp [hc, text, Literal.infixText, lexemes]
    · simp [hc, ihx hx]

end PanelCalc
