import PanelCalc.Cellwise
import PanelCalc.Vocabulary.Basic
import PanelCalc.Vocabulary.Priority

/-!
# The built-in vocabulary

The operators and functions that every formula may use unless a vocabulary is built up from nothing.
-/

namespace PanelCalc.Vocabulary

/-- Operators that are written like functions of one argument. -/
def namedUnaryFunctions : List (String × (Float → Float)) :=
  [("Sin", Float.sin), ("Cos", Float.cos), ("Tan", Float.tan), ("Sqrt", Float.sqrt),
    ("Log", Float.log), ("Abs", Float.abs), ("Ceil", Float.ceil), ("Floor", Float.floor),
    ("Round", Cell.roundHalfEven), ("Sign", Cell.sign), ("exp", Float.exp)]

/-- Operators between two numbers, with their priorities. -/
def binaryFunctions : List (String × Int × (Float → Float → Float)) :=
  [("+", 2, (· + ·)), ("-", 2, (· - ·)), ("*", 3, (· * ·)), ("/", 4, (· / ·)),
    ("%", 4, Cell.modulo), ("^", 6, Float.pow),
    ("==", 1, Cell.compare fun a b => a == b), ("!=", 1, Cell.compare fun a b => a != b),
    (">", 1, Cell.compare fun a b => a > b), ("<", 1, Cell.compare fun a b => a < b),
    (">=", 1, Cell.compare fun a b => a ≥ b), ("<=", 1, Cell.compare fun a b => a ≤ b),
    ("&&", 0, Cell.and), ("and", 0, Cell.and), ("||", 0, Cell.or), ("or", 0, Cell.or)]

variable {H : Type}

def cellUnary (name : String) (f : Float → Float) (alignment : Alignment) (x : Value H) :
    Except EvalError (Value H) :=
  cellwise alignment name [x] fun
    | [x] => f x
    | _ => Cell.missing

def cellBinary (name : String) (f : Float → Float → Float) (alignment : Alignment)
    (x y : Value H) : Except EvalError (Value H) :=
  cellwise alignment name [x, y] fun
    | [x, y] => f x y
    | _ => Cell.missing

/-- The comma, which collects the arguments of a call. -/
def commaEntry : BinaryEntry H where
  symbol := ","
  priority := Priority.comma
  apply _ left right := .ok (left.append right)

/-- The operators and functions that are built in, in the spelling of a case style. -/
def builtin (caseStyle : CaseStyle) : Vocabulary H where
  unary :=
    { symbol := "-", priority := 5, apply := cellUnary "-" (- ·) } ::
    namedUnaryFunctions.map fun (name, f) =>
      { symbol := caseStyle.spell name, priority := Priority.named, apply := cellUnary name f }
  binary :=
    (binaryFunctions.map fun (name, priority, f) =>
      { symbol := caseStyle.spell name, priority, apply := cellBinary name f }) ++ [commaEntry]
  functions := Builtin.all.map fun f =>
    { name := caseStyle.spell f.name, arity := .exact f.argumentCount, body := .builtin f }
  caseStyle := caseStyle

end PanelCalc.Vocabulary
