import PanelCalc.Lexeme.Basic

/-!
# Compile errors

Why a text is no formula, and where this shows.
-/

namespace PanelCalc

inductive LexFault where
  | unterminatedComment
  | malformedNumber
  | unterminatedString
  /-- The characters after a backslash stand for nothing. -/
  | illegalEscape (sequence : List Char)
  | unterminatedName
  | unknownCharacter (c : Char)
deriving DecidableEq

/-- Why lexemes do not make up a formula. -/
inductive ParseFault where
  | empty
  | unmatchedParenthesis
  | missingOperand
  | unexpected (lexeme : Lexeme)
  | unknownOperator (symbol : String)
  | parity (operands operators : Nat)
deriving DecidableEq

inductive CompileFault where
  | lexical (fault : LexFault)
  | structural (fault : ParseFault)
deriving DecidableEq

/-- Why a text is no formula, and the column where this shows. -/
structure CompileError where
  column : Nat
  fault : CompileFault
deriving DecidableEq

def LexFault.reason : LexFault → String
  | unterminatedComment => "unterminated comment"
  | malformedNumber => "malformed number"
  | unterminatedString => "unterminated string"
  | illegalEscape sequence =>
    let shown := String.ofList sequence
    s!"illegal escape sequence: \\{shown}"
  | unterminatedName => "unterminated quoted identifier"
  | unknownCharacter c => s!"unknown character `{c}`"

def ParseFault.reason : ParseFault → String
  | empty => "empty expression"
  | unmatchedParenthesis => "unmatched \"()\""
  | missingOperand => "missing operand"
  | unexpected lexeme =>
    let shown := lexeme.describe
    s!"unexpected {shown}"
  | unknownOperator symbol => s!"unknown operator `{symbol}`"
  | parity operands operators =>
    s!"parity: {operands} operands for {operators} binary operators"

namespace CompileError

def reason (error : CompileError) : String :=
  match error.fault with
  | .lexical fault => fault.reason
  | .structural fault => fault.reason

def message (error : CompileError) : String :=
  let stage := match error.fault with
    | .lexical _ => "lex"
    | .structural _ => "parse"
  let column := error.column
  let reason := error.reason
  s!"{stage} error [column {column}]: {reason}"

end CompileError

end PanelCalc
