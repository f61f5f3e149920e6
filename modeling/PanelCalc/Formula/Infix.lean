import PanelCalc.Double.Notation
import PanelCalc.Formula.Basic
import PanelCalc.Text.Quoted

/-!
# Writing formulas

The canonical text of a formula has parentheses around every operator, so that it reads back to the
same program without regard to priorities. Numbers that cannot be written as such become operations
that give them: a negative number a sign before a parenthesised number, and a number that is not
finite a quotient by zero.
-/

namespace PanelCalc

def numberText (x : Float) : String :=
  if x.isNaN then "(0/0)"
  else if x.isInf then if x > 0.0 then "(1/0)" else "((-1)/0)"
  else if Double.isNegative x then "(-" ++ Double.plain (-x) ++ ")"
  else Double.plain x

def Literal.infixText : Literal → String
  | number x => numberText x
  | text s => Text.Quoted.quote s
  | noArguments => ""

def unaryText (symbol operand : String) : String :=
  if Text.hasLetter symbol then symbol ++ "(" ++ operand ++ ")"
  else "(" ++ symbol ++ operand ++ ")"

def binaryText (symbol left right : String) : String :=
  if symbol = "," then left ++ "," ++ right
  else if Text.hasLetter symbol then "(" ++ left ++ " " ++ symbol ++ " " ++ right ++ ")"
  else "(" ++ left ++ symbol ++ right ++ ")"

/-- The texts of the values on the stack after a step, the top first. -/
def Step.write (stack : List String) (step : Step) : Option (List String) :=
  match step, stack with
  | .literal value, stack => some (value.infixText :: stack)
  | .var name, stack => some (name :: stack)
  | .unary symbol, operand :: stack => some (unaryText symbol operand :: stack)
  | .binary symbol, right :: left :: stack => some (binaryText symbol left right :: stack)
  | .call, arguments :: callee :: stack =>
    some ((callee ++ "(" ++ arguments ++ ")") :: stack)
  | _, _ => none

/-- The canonical text of a program that leaves one value. -/
def Program.infixText? (program : Program) : Option String :=
  match program.foldlM Step.write [] with
  | some [text] => some text
  | _ => none

/-- The canonical text of a formula. -/
def Formula.text {H : Type} (f : Formula H) : String :=
  (Program.infixText? f.program).getD "<invalid expression>"

end PanelCalc
