import PanelCalc.Builtin.Basic
import PanelCalc.Panel.Basic

/-!
# Values

What formulas work with. Besides the built-in functions a vocabulary may hold functions supplied by
a host program; the type `H` stands for these, and nothing is known about them here except that they
can be told apart.
-/

namespace PanelCalc

/-- What a function does: something built in, or something the host program supplies. -/
inductive FunctionBody (H : Type) where
  | builtin (f : Builtin)
  | host (f : H)
deriving DecidableEq

structure FunctionEntry (H : Type) where
  name : String
  arity : Arity
  body : FunctionBody H
deriving DecidableEq

inductive Value (H : Type) where
  | scalar (x : Float)
  | panel (p : Panel)
  /-- A quoted text, which only functions of the host program make use of. -/
  | text (s : String)
  /-- The arguments of a call, in order. -/
  | list (items : List (Value H))
  | function (entry : FunctionEntry H)

/-- The kinds of values. -/
inductive Kind where
  | scalar
  | panel
  | text
  | list
  | function
deriving DecidableEq, Repr

def Kind.name : Kind → String
  | scalar => "scalar"
  | panel => "panel"
  | text => "text"
  | list => "argument list"
  | function => "function"

namespace Value

variable {H : Type}

def kind : Value H → Kind
  | scalar _ => .scalar
  | panel _ => .panel
  | text _ => .text
  | list _ => .list
  | function _ => .function

mutual

/-- Whether two values are equal. A missing number equals nothing, and no function another one. -/
def same [DecidableEq H] : Value H → Value H → Bool
  | scalar x, scalar y => x == y
  | panel p, panel q => p.same q
  | text s, text t => s == t
  | list xs, list ys => sameItems xs ys
  | function f, function g => f == g
  | _, _ => false

def sameItems [DecidableEq H] : List (Value H) → List (Value H) → Bool
  | [], [] => true
  | x :: xs, y :: ys => same x y && sameItems xs ys
  | _, _ => false

end

/-- The values that a call passes on: the items of an argument list, or the value alone. -/
def arguments : Value H → List (Value H)
  | list items => items
  | single => [single]

/-- The value with one more argument behind it. -/
def append (left right : Value H) : Value H := list (left.arguments ++ [right])

end Value

end PanelCalc
