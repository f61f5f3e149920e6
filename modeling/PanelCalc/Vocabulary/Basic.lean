import PanelCalc.Alignment
import PanelCalc.EvalError
import PanelCalc.Text.Lowercase
import PanelCalc.Text.Word

/-!
# Vocabularies

The operators and functions that formulas may use. A vocabulary has three tables: operators before
an operand, operators between two operands, and functions. Names are kept in the spelling that the
case style of the vocabulary asks for, so that they are looked up exactly as written.
-/

namespace PanelCalc

/-- How names with letters are spelled in a vocabulary. -/
inductive CaseStyle where
  /-- As they were registered. -/
  | upper
  /-- In lower case. -/
  | lower
deriving DecidableEq, Repr

/-- The spelling of a name in a vocabulary. Names without letters have one spelling only. -/
def CaseStyle.spell (style : CaseStyle) (name : String) : String :=
  match style with
  | upper => name
  | lower => if Text.hasLetter name then Text.lowercase name else name

structure UnaryEntry (H : Type) where
  symbol : String
  priority : Int
  apply : Alignment → Value H → Except EvalError (Value H)

structure BinaryEntry (H : Type) where
  symbol : String
  priority : Int
  apply : Alignment → Value H → Value H → Except EvalError (Value H)

/-- The operators and functions that formulas may use. -/
structure Vocabulary (H : Type) where
  unary : List (UnaryEntry H)
  binary : List (BinaryEntry H)
  functions : List (FunctionEntry H)
  caseStyle : CaseStyle

namespace Vocabulary

variable {H : Type}

def empty (caseStyle : CaseStyle) : Vocabulary H := ⟨[], [], [], caseStyle⟩

def unary? (v : Vocabulary H) (symbol : String) : Option (UnaryEntry H) :=
  v.unary.find? (·.symbol == symbol)

def binary? (v : Vocabulary H) (symbol : String) : Option (BinaryEntry H) :=
  v.binary.find? (·.symbol == symbol)

def function? (v : Vocabulary H) (name : String) : Option (FunctionEntry H) :=
  v.functions.find? (·.name == name)

def isFunction (v : Vocabulary H) (name : String) : Bool := (v.function? name).isSome

/-- Whether the word is an operator between operands, such as `and`. -/
def isBinaryKeyword (v : Vocabulary H) (word : String) : Bool :=
  Text.isIdentifier word && (v.binary? word).isSome

/-- Whether the word is an operator before an operand, such as `Sqrt`. -/
def isNamedUnary (v : Vocabulary H) (word : String) : Bool :=
  Text.isIdentifier word && (v.unary? word).isSome

def inOrder (names : List String) : List String := names.mergeSort fun a b => a ≤ b

def unarySymbols (v : Vocabulary H) : List String := inOrder (v.unary.map (·.symbol))

def binarySymbols (v : Vocabulary H) : List String := inOrder (v.binary.map (·.symbol))

def functionNames (v : Vocabulary H) : List String := inOrder (v.functions.map (·.name))

end Vocabulary

end PanelCalc
