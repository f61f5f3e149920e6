import PanelCalc.Vocabulary.Basic

/-!
# Batch requests

Several formulas that are to be compiled and evaluated together.
-/

namespace PanelCalc

/-- Formulas by their texts, the names of their outputs, and the spelling of built-in names. -/
structure BatchRequest where
  formulas : List String
  /-- One name per formula, or none at all. -/
  outputs : List String
  caseStyle : CaseStyle
deriving DecidableEq, Repr

namespace BatchRequest

/-- The request that names no outputs and keeps the usual spelling. -/
def plain (formulas : List String) : BatchRequest := ⟨formulas, [], .upper⟩

/-- The name of an output: the given one, or one made up from its position. -/
def outputName (request : BatchRequest) (index : Nat) : String :=
  request.outputs[index]?.getD s!"f{index}"

def entries (request : BatchRequest) : List (String × String) :=
  request.formulas.zipIdx.map fun (text, index) => (request.outputName index, text)

end BatchRequest

end PanelCalc
