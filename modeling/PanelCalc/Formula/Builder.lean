import PanelCalc.CompileError
import PanelCalc.Formula.Grammar
import PanelCalc.Formula.Program
import PanelCalc.Vocabulary.Priority

/-!
# Building programs

Lexemes are taken one after the other. Operands go to the output at once; an operator waits until
one that binds less tightly, or equally tightly and later, comes after it. What may come next is
always one of five expectations.
-/

namespace PanelCalc

/-- What may come next in a formula. -/
inductive Expectation where
  /-- An operand must begin here. -/
  | operand
  /-- An argument begins here, or the call has none. -/
  | argument
  /-- A literal has ended, which cannot be called. -/
  | afterLiteral
  /-- An operand has ended that may be called. -/
  | afterCallable
  /-- The parenthesis after an operator that is written like a function. -/
  | group
deriving DecidableEq, Repr

def Expectation.beginsOperand : Expectation → Bool
  | operand | argument => true
  | afterLiteral | afterCallable | group => false

def Expectation.endsOperand : Expectation → Bool
  | afterLiteral | afterCallable => true
  | operand | argument | group => false

/-- What has been made of the lexemes so far. -/
structure Builder where
  /-- Whether there were any. -/
  started : Bool
  /-- The steps that are settled, latest first. -/
  output : List Step
  /-- The operators that wait, with their priorities, latest first. -/
  waiting : List (Step × Int32)
  expected : Expectation
  /-- The number of open parentheses, as far as 32 bits can tell. -/
  depth : Int32
  /-- The number of operands in the output. -/
  operands : Nat
  /-- The number of operators, commas and calls that take two operands. -/
  joins : Nat
deriving DecidableEq

namespace Builder

def start : Builder := ⟨false, [], [], .operand, 0, 0, 0⟩

/-- Moves the waiting operators that bind at least as tightly to the output. -/
def settle (priority : Int32) :
    List (Step × Int32) → List Step → List (Step × Int32) × List Step
  | [], output => ([], output)
  | (step, top) :: waiting, output =>
    if top < priority then ((step, top) :: waiting, output)
    else settle priority waiting (step :: output)

/-- Puts an operand to the output. -/
def operand (b : Builder) (step : Step) (expected : Expectation) : Builder :=
  { b with output := step :: b.output, operands := b.operands + 1, expected }

/-- Lets an operator before its operand wait. -/
def opener (b : Builder) (symbol : String) (priority : Int) (expected : Expectation) : Builder :=
  { b with waiting := (.unary symbol, Priority.atDepth priority b.depth) :: b.waiting, expected }

/-- Lets an operator between operands wait, after those that bind at least as tightly. -/
def join (b : Builder) (step : Step) (priority : Int) (expected : Expectation) : Builder :=
  let priority := Priority.atDepth priority b.depth
  let (waiting, output) := settle priority b.waiting b.output
  { b with output, waiting := (step, priority) :: waiting, joins := b.joins + 1, expected }

/-- Takes the symbol of an operator: a sign where an operand begins. -/
def acceptOperator (g : Grammar) (b : Builder) (symbol : String) : Except ParseFault Builder :=
  if b.expected.beginsOperand && symbol == "+" then .ok { b with expected := .operand }
  else if b.expected.beginsOperand && symbol == "-" then
    match g.unaryPriority? symbol with
    | some priority => .ok (b.opener symbol priority .operand)
    | none => .error (.unknownOperator symbol)
  else if b.expected.endsOperand then
    match g.binaryPriority? symbol with
    | some priority => .ok (b.join (.binary symbol) priority .operand)
    | none => .error (.unknownOperator symbol)
  else .error (.unexpected (.operator symbol))

/-- Takes an opening parenthesis: a call after an operand that may be called. -/
def acceptOpen (b : Builder) : Except ParseFault Builder :=
  match b.expected with
  | .afterCallable =>
    .ok ({ b with depth := b.depth + 1 }.join .call Priority.call .argument)
  | .operand | .argument | .group => .ok { b with depth := b.depth + 1, expected := .operand }
  | .afterLiteral => .error (.unexpected .openParen)

def acceptClose (b : Builder) : Except ParseFault Builder :=
  match b.expected with
  | .argument =>
    .ok ({ b with depth := b.depth - 1 }.operand (.literal .noArguments) .afterCallable)
  | .afterLiteral | .afterCallable =>
    if b.depth = 0 then .error .unmatchedParenthesis
    else .ok { b with depth := b.depth - 1, expected := .afterCallable }
  | .operand | .group => .error (.unexpected .closeParen)

def acceptComma (g : Grammar) (b : Builder) : Except ParseFault Builder :=
  if b.expected.endsOperand && b.depth != 0 then
    let priority := (g.binaryPriority? ",").getD Priority.comma
    .ok (b.join (.binary ",") priority .operand)
  else .error (.unexpected .comma)

def accept (g : Grammar) (b : Builder) (lexeme : Lexeme) : Except ParseFault Builder :=
  let b := { b with started := true }
  match lexeme with
  | .operator symbol => b.acceptOperator g symbol
  | .number x | .constant x =>
    if b.expected.beginsOperand then .ok (b.operand (.literal (.number x)) .afterLiteral)
    else .error (.unexpected lexeme)
  | .text s =>
    if b.expected.beginsOperand then .ok (b.operand (.literal (.text s)) .afterLiteral)
    else .error (.unexpected lexeme)
  | .identifier name =>
    if b.expected.beginsOperand then .ok (b.operand (.var name) .afterCallable)
    else .error (.unexpected lexeme)
  | .namedUnary name =>
    if b.expected.beginsOperand then
      match g.unaryPriority? name with
      | some priority => .ok (b.opener name priority .group)
      | none => .error (.unknownOperator name)
    else .error (.unexpected lexeme)
  | .openParen => b.acceptOpen
  | .closeParen => b.acceptClose
  | .comma => b.acceptComma g

/-- The program of all lexemes, once the last one has been taken. -/
def finish (b : Builder) : Except ParseFault Program :=
  if !b.started then .error .empty
  else if 0 < b.depth then .error .unmatchedParenthesis
  else if !b.expected.endsOperand then .error .missingOperand
  else if b.operands ≠ b.joins + 1 then .error (.parity b.operands b.joins)
  else .ok (b.output.reverse ++ b.waiting.map (·.1))

end Builder

end PanelCalc
