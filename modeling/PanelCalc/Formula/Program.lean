/-!
# Programs

A formula is compiled to a program in postfix order: every step follows the steps that produce its
operands, and leaves one value in their place.
-/

namespace PanelCalc

inductive Literal where
  | number (x : Float)
  | text (s : String)
  /-- The argument list of a call without arguments. -/
  | noArguments
deriving DecidableEq

inductive Step where
  | literal (value : Literal)
  | var (name : String)
  | unary (symbol : String)
  | binary (symbol : String)
  /-- Takes a function and its arguments, and leaves what the function answers. -/
  | call
deriving DecidableEq

def Step.label : Step → String
  | literal _ => "literal"
  | var name => name
  | unary symbol => symbol
  | binary symbol => symbol
  | call => "call"

/-- Whether two literals are equal; a missing number equals nothing. -/
def Literal.same : Literal → Literal → Bool
  | number x, number y => x == y
  | text s, text t => s == t
  | noArguments, noArguments => true
  | _, _ => false

/-- Whether two steps are equal, numbers being compared as numbers. -/
def Step.same : Step → Step → Bool
  | literal x, literal y => x.same y
  | step, other => step = other

/-- Steps in postfix order. -/
abbrev Program := List Step

def Program.same (p q : Program) : Bool :=
  p.length == q.length && (p.zip q).all fun (step, other) => step.same other

end PanelCalc
