import PanelCalc.Proofs.Printing.Brackets
import PanelCalc.Proofs.Printing.Merging

/-! # Words that do not run together

Nothing is read after a name but an operator, a parenthesis or a comma, and
nothing after a named operator but a parenthesis. So a word of a text runs into
what comes next only if one of the two is an operator that is a word and
yet has no letter, and hence gets no blanks around it. -/
namespace PanelCalc

variable {H : Type} {v : Vocabulary H} {l l' : Lexeme} {ls rest : List Lexeme}

namespace Lexeme

/-- What may come after a word that is no operator between operands. -/
def Permits : Lexeme → Lexeme → Prop
  | identifier _, l' => l'.follows = true
  | namedUnary _, l' => l' = openParen
  | _, _ => True

/-- Lexemes with nothing out of place after a word, that may come after an operand. -/
structure Onward (ls : List Lexeme) : Prop where
  chain : ls.IsChain Permits
  follows : ∀ l ∈ ls.head?, l.follows = true

theorem Onward.cons (hl : l.follows = true) (h : ls.IsChain Permits) : Onward (l :: ls) := by
  refine ⟨List.isChain_cons.mpr ⟨fun l' _ => ?_, h⟩, fun l' hl' => Option.some.inj hl' ▸ hl⟩
  cases l with
  | identifier | namedUnary => cases hl
  | _ => trivial

end Lexeme

open Lexeme (Onward Permits)

namespace Vocabulary

/-- Operators between operands have a letter if they are words. -/
def Lettered (v : Vocabulary H) : Prop :=
  ∀ s, v.Knows (.operator s) → Text.isIdentifier s = true → Text.hasLetter s = true

end Vocabulary

end PanelCalc
