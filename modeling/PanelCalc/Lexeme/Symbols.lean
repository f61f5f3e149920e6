/-!
# Operator symbols

The operators that are written without letters.
-/

namespace PanelCalc

/-- An operator without letters: how it is written and what it is called. -/
structure OperatorSymbol where
  written : String
  name : String
deriving DecidableEq, Repr

/--
The operator symbols. Of two that start alike the longer one comes first. The dots used for
multiplication in print are other ways to write `*`.
-/
def operatorSymbols : List OperatorSymbol :=
  [⟨"==", "=="⟩, ⟨"!=", "!="⟩, ⟨"<=", "<="⟩, ⟨">=", ">="⟩, ⟨"&&", "&&"⟩, ⟨"||", "||"⟩,
    ⟨"+", "+"⟩, ⟨"-", "-"⟩, ⟨"*", "*"⟩, ⟨"∙", "*"⟩, ⟨"•", "*"⟩, ⟨"/", "/"⟩, ⟨"%", "%"⟩,
    ⟨"^", "^"⟩, ⟨"<", "<"⟩, ⟨">", ">"⟩]

/-- Whether the text is read as the operator symbol of that very name. -/
def isOperatorSymbol (text : String) : Bool := operatorSymbols.contains ⟨text, text⟩

end PanelCalc
