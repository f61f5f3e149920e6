import PanelCalc.Lexeme.Symbols
import PanelCalc.Vocabulary.Basic
import PanelCalc.Vocabulary.Priority

/-!
# Registering operators and functions

A vocabulary takes a new entry only under a name that is free in its table and that formulas can
express. No entry is ever replaced.
-/

namespace PanelCalc

inductive VocabularyTable where
  | unary
  | binary
  | functions
deriving DecidableEq, Repr

def VocabularyTable.name : VocabularyTable → String
  | unary => "unary"
  | binary => "binary"
  | functions => "functions"

inductive RegisterError where
  /-- The table has an entry of that name. -/
  | duplicate (name : String) (table : VocabularyTable)
  /-- No formula can express the symbol. -/
  | unlexableSymbol (symbol : String)
  /-- A plus before an operand is no operator. -/
  | signOperator (symbol : String)
  /-- The priority lies outside the range of operators. -/
  | invalidPriority (symbol : String) (priority : Int)
deriving DecidableEq, Repr

def RegisterError.message : RegisterError → String
  | duplicate name table =>
    let tableName := table.name
    s!"register failed: name `{name}` already exists in the {tableName} table"
  | unlexableSymbol symbol => s!"operator symbol `{symbol}` cannot be produced by the lexer"
  | signOperator symbol =>
    s!"unary `{symbol}` is always read as a sign and never reaches the table"
  | invalidPriority symbol priority =>
    let highest := Priority.highest
    s!"priority {priority} for `{symbol}` is outside 0..={highest}"

/-- Whether a formula can express the symbol as one operator. -/
def isLexable (symbol : String) : Bool := Text.isIdentifier symbol || isOperatorSymbol symbol

namespace Vocabulary

variable {H : Type}

/-- Whether the priority lies in the range of operators. -/
def checkPriority (symbol : String) (priority : Int) : Except RegisterError Unit :=
  if 0 ≤ priority ∧ priority ≤ Priority.highest then .ok ()
  else .error (.invalidPriority symbol priority)

def registerUnary (v : Vocabulary H) (name : String) (priority : Int)
    (apply : Alignment → Value H → Except EvalError (Value H)) :
    Except RegisterError (Vocabulary H) := do
  let symbol := v.caseStyle.spell name
  if (v.unary? symbol).isSome then throw (.duplicate symbol .unary)
  if !isLexable symbol then throw (.unlexableSymbol symbol)
  if symbol = "+" then throw (.signOperator symbol)
  checkPriority symbol priority
  return { v with unary := v.unary ++ [{ symbol, priority, apply }] }

def registerBinary (v : Vocabulary H) (name : String) (priority : Int)
    (apply : Alignment → Value H → Value H → Except EvalError (Value H)) :
    Except RegisterError (Vocabulary H) := do
  let symbol := v.caseStyle.spell name
  if (v.binary? symbol).isSome then throw (.duplicate symbol .binary)
  if !isLexable symbol then throw (.unlexableSymbol symbol)
  checkPriority symbol priority
  return { v with binary := v.binary ++ [{ symbol, priority, apply }] }

def registerFunction (v : Vocabulary H) (name : String) (arity : Arity) (body : FunctionBody H) :
    Except RegisterError (Vocabulary H) := do
  let name := v.caseStyle.spell name
  if (v.function? name).isSome then throw (.duplicate name .functions)
  if !Text.isIdentifier name then throw (.unlexableSymbol name)
  return { v with functions := v.functions ++ [{ name, arity, body }] }

end Vocabulary

end PanelCalc
