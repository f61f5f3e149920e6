/-!
# Arity

How many arguments a function takes.
-/

namespace PanelCalc

inductive Arity where
  | exact (count : Nat)
  | atLeast (count : Nat)
deriving DecidableEq, Repr

/-- Whether a number of arguments is accepted. -/
def Arity.accepts : Arity → Nat → Bool
  | exact count, n => n == count
  | atLeast count, n => count ≤ n

def Arity.text : Arity → String
  | exact count => toString count
  | atLeast count => s!"at least {count}"

end PanelCalc
