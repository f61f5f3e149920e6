import PanelCalc.Batch.Request
import PanelCalc.Formula.Eval
import PanelCalc.Vocabulary.Builtin

/-!
# Batches

A batch is a list of named formulas. They are evaluated in order, and each output is known under its
name to the formulas after it. Formulas with the same text are compiled once.
-/

namespace PanelCalc

inductive BatchError where
  | emptyRequest
  | outputCount (formulas outputs : Nat)
  | duplicateOutput (name : String)
  | compile (output : String) (error : CompileError)
  | evaluate (output : String) (error : EvalError)
deriving DecidableEq

def BatchError.message : BatchError → String
  | emptyRequest => "empty factor request"
  | outputCount formulas outputs =>
    s!"request has {formulas} expressions but {outputs} output names"
  | duplicateOutput name => s!"duplicate output name `{name}`"
  | compile output error =>
    let reason := error.message
    s!"failed to compile `{output}`: {reason}"
  | evaluate output error =>
    let reason := error.message
    s!"failed to evaluate `{output}`: {reason}"

/-- Named formulas, in the order of their evaluation. -/
structure Batch (H : Type) where
  outputs : List (String × Formula H)
  /-- The different texts that were compiled. -/
  texts : List (String × Formula H)
  /-- The names that the caller must bind, in the order of first use. -/
  inputs : List String

namespace Batch

variable {H : Type}

/-- The batch without formulas. -/
def empty : Batch H := ⟨[], [], []⟩

def outputNames (batch : Batch H) : List String := batch.outputs.map (·.1)

def formula? (batch : Batch H) (output : String) : Option (Formula H) :=
  batch.outputs.lookup output

/-- The names that are needed besides the outputs so far, once a formula is added. -/
def addInputs (batch : Batch H) (f : Formula H) : List String :=
  f.freeVariables.foldl (fun inputs name =>
    if batch.outputNames.contains name || inputs.contains name then inputs
    else inputs ++ [name]) batch.inputs

/-- The batch with one more formula behind the others. -/
def add (v : Vocabulary H) (batch : Batch H) (entry : String × String) :
    Except BatchError (Batch H) := do
  let (name, text) := entry
  if batch.outputNames.contains name then throw (.duplicateOutput name)
  let key := Text.trim text
  match batch.texts.lookup key with
  | some f =>
    return { batch with outputs := batch.outputs ++ [(name, f)], inputs := batch.addInputs f }
  | none =>
    let f ← (Formula.parse v key).mapError (.compile name)
    return {
      outputs := batch.outputs ++ [(name, f)]
      texts := batch.texts ++ [(key, f)]
      inputs := batch.addInputs f }

def compile (v : Vocabulary H) (request : BatchRequest) : Except BatchError (Batch H) := do
  if request.formulas.isEmpty then throw .emptyRequest
  if !request.outputs.isEmpty && request.outputs.length != request.formulas.length then
    throw (.outputCount request.formulas.length request.outputs.length)
  request.entries.foldlM (add v) empty

/-- The batch of a request, read with the built-in vocabulary in the spelling asked for. -/
def ofRequest (request : BatchRequest) : Except BatchError (Batch H) :=
  compile (Vocabulary.builtin request.caseStyle) request

def formulaCount (batch : Batch H) : Nat := batch.outputs.length

/-- The number of different texts. -/
def uniqueCount (batch : Batch H) : Nat := batch.texts.length

/-- The number of formulas whose text had been compiled before. -/
def repeatCount (batch : Batch H) : Nat := batch.formulaCount - batch.uniqueCount

/-- The number of names that the caller must bind. -/
def inputCount (batch : Batch H) : Nat := batch.inputs.length

def summary (batch : Batch H) : String :=
  let formulas := batch.formulaCount
  let unique := batch.uniqueCount
  let repeats := batch.repeatCount
  let inputs := batch.inputCount
  s!"exprs={formulas} unique={unique} cache_hits={repeats} inputs={inputs}"

variable [HostFunctions H]

/-- The values of the outputs so far with that of one more, and the bindings for the next one. -/
def evaluateNext (alignment : Alignment) (known : Bindings H × List (String × Value H))
    (output : String × Formula H) :
    Except BatchError (Bindings H × List (String × Value H)) := do
  let (bindings, results) := known
  let (name, f) := output
  let value ← (f.evaluate bindings alignment).mapError (.evaluate name)
  return (bindings.insert name value, results ++ [(name, value)])

def evaluate (batch : Batch H) (bindings : Bindings H) (alignment : Alignment) :
    Except BatchError (List (String × Value H)) :=
  (batch.outputs.foldlM (evaluateNext alignment) (bindings, [])).map (·.2)

end Batch

end PanelCalc
