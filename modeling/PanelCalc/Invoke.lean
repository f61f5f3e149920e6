import PanelCalc.Builtin.Call

/-!
# Invoking functions

A function checks the number of its arguments before it looks at any of them.
-/

namespace PanelCalc

/-- What the functions supplied by a host program answer. -/
class HostFunctions (H : Type) where
  call : H → Alignment → List (Value H) → Except EvalError (Value H)

/-- Where the host program supplies no functions, there is nothing to call. -/
instance : HostFunctions Empty := ⟨fun f => nomatch f⟩

variable {H : Type} [HostFunctions H]

/-- The answer of a function to its arguments, whatever their number. -/
def FunctionBody.call (alignment : Alignment) (arguments : List (Value H)) :
    FunctionBody H → Except EvalError (Value H)
  | builtin f => f.call alignment arguments
  | host f => HostFunctions.call f alignment arguments

def FunctionEntry.invoke (entry : FunctionEntry H) (alignment : Alignment)
    (arguments : List (Value H)) : Except EvalError (Value H) :=
  if entry.arity.accepts arguments.length then entry.body.call alignment arguments
  else .error (.invalidArity entry.name entry.arity arguments.length)

end PanelCalc
