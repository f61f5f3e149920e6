/-!
# Lexemes

The smallest meaningful pieces of a formula.
-/

namespace PanelCalc

inductive Lexeme where
  /-- An operator between operands or a sign, by its symbol. -/
  | operator (symbol : String)
  | number (x : Float)
  /-- A quoted text, without its quotes. -/
  | text (s : String)
  /-- A number known by name. -/
  | constant (x : Float)
  /-- An operator that is written like a function of one argument. -/
  | namedUnary (name : String)
  | identifier (name : String)
  | openParen
  | closeParen
  | comma
deriving DecidableEq

/-- The name shown for a lexeme where it is out of place. -/
def Lexeme.describe : Lexeme → String
  | operator _ => "operator"
  | number _ => "number"
  | text _ => "string"
  | constant _ => "constant"
  | namedUnary _ => "function"
  | identifier _ => "variable"
  | openParen => "\"(\""
  | closeParen => "\")\""
  | comma => "\",\""

/-- A lexeme and the column of its first character. -/
structure Located where
  lexeme : Lexeme
  column : Nat
deriving DecidableEq

end PanelCalc
