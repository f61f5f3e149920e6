import PanelCalc.Formula.Basic
import PanelCalc.Text.DoubleQuoted

/-!
# Inspection

Texts that show values, formulas and vocabularies to somebody who looks for the cause of a problem.
They name the parts of what they show; long contents, such as the cells of a panel, are left out.
-/

namespace PanelCalc

/-- Items between brackets. -/
def inspectList (items : List String) : String := "[" ++ ", ".intercalate items ++ "]"

def inspectOne (name part : String) : String := name ++ "(" ++ part ++ ")"

/-- A name with fields between braces; the last entry may be dots for what is left out. -/
def inspectFields (name : String) (fields : List String) : String :=
  name ++ " \x7b " ++ ", ".intercalate fields ++ " \x7d"

def Arity.inspect : Arity → String
  | exact count => inspectOne "Exact" (toString count)
  | atLeast count => inspectOne "AtLeast" (toString count)

def FunctionEntry.inspect {H : Type} (entry : FunctionEntry H) : String :=
  inspectFields "FunctionEntry"
    ["name: " ++ Text.inspect entry.name, "arity: " ++ entry.arity.inspect]

/-- The text that shows the size of a panel. -/
def Panel.inspect (p : Panel) : String :=
  inspectFields "Panel" ["rows: " ++ toString p.rows, "cols: " ++ toString p.cols]

mutual

def Value.inspect {H : Type} : Value H → String
  | scalar x => inspectOne "Scalar" (Double.marked x)
  | panel p => p.inspect
  | text s => inspectOne "Text" (Text.inspect s)
  | list items => inspectOne "List" (inspectList (Value.inspectItems items))
  | function entry => inspectOne "Function" (Text.inspect entry.name)

def Value.inspectItems {H : Type} : List (Value H) → List String
  | [] => []
  | item :: items => Value.inspect item :: Value.inspectItems items

end

def Literal.inspect : Literal → String
  | number x => inspectOne "Number" (Double.marked x)
  | text s => inspectOne "Text" (Text.inspect s)
  | noArguments => "EmptyArgs"

def Step.inspect : Step → String
  | literal value => inspectOne "Number" value.inspect
  | var name => inspectOne "Variable" (Text.inspect name)
  | unary symbol => inspectOne "UnaryOp" (Text.inspect symbol)
  | binary symbol => inspectOne "BinaryOp" (Text.inspect symbol)
  | call => "Call"

/-- The text that shows a formula without its vocabulary. -/
def Formula.inspect {H : Type} (f : Formula H) : String :=
  inspectFields "Expression" ["tokens: " ++ inspectList (f.program.map Step.inspect), ".."]

def CaseStyle.inspect : CaseStyle → String
  | upper => "Upper"
  | lower => "Lower"

/-- The text that shows the names of a vocabulary. -/
def Vocabulary.inspect {H : Type} (v : Vocabulary H) : String :=
  let listing (names : List String) := inspectList (names.map Text.inspect)
  inspectFields "OperatorTables"
    ["unary: " ++ listing v.unarySymbols, "binary: " ++ listing v.binarySymbols,
      "functions: " ++ listing v.functionNames, "case_style: " ++ v.caseStyle.inspect]

end PanelCalc
