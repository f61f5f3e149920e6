import PanelCalc.Lexeme.Basic
import PanelCalc.Vocabulary.Basic

/-!
# What reading a formula takes from a vocabulary

Of a vocabulary the reader needs only what its words mean and how tightly its operators bind.
-/

namespace PanelCalc

/-- The meaning of words and the priorities of operators. -/
structure Grammar where
  /-- The lexeme that a word stands for. -/
  classify : String → Lexeme
  /-- The priority of an operator before its operand. -/
  unaryPriority? : String → Option Int
  /-- The priority of an operator between its operands. -/
  binaryPriority? : String → Option Int

/-- The numbers known by name. -/
def namedConstants : List (String × Float) :=
  [("E", 2.718281828459045), ("PI", 3.141592653589793)]

namespace Vocabulary

variable {H : Type}

/--
The lexeme that a word stands for. Constants come first, then operators between operands, then
operators before an operand; any other word is an identifier.
-/
def classify (v : Vocabulary H) (word : String) : Lexeme :=
  match namedConstants.lookup word with
  | some x => .constant x
  | none =>
    if v.isBinaryKeyword word then .operator word
    else if v.isNamedUnary word then .namedUnary word
    else .identifier word

def grammar (v : Vocabulary H) : Grammar where
  classify := v.classify
  unaryPriority? symbol := (v.unary? symbol).map (·.priority)
  binaryPriority? symbol := (v.binary? symbol).map (·.priority)

end Vocabulary

end PanelCalc
