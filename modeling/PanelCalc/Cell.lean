import PanelCalc.Double.Parts

/-!
# Cells

A cell holds one observation, and NaN marks a missing one. Arithmetic carries missing cells along by
itself; the functions here are those that have to look for them, together with the rules of rounding,
remainder and sign that the built-in operators follow.
-/

namespace PanelCalc.Cell

def missing : Float := 0.0 / 0.0

/-- One for true and zero for false. -/
def ofBool (b : Bool) : Float := if b then 1.0 else 0.0

def isTrue (x : Float) : Bool := x != 0.0

/-- The value of `f`, unless one of the two cells is missing. -/
def ifKnown (f : Float → Float → Float) (a b : Float) : Float :=
  if a.isNaN || b.isNaN then missing else f a b

def compare (holds : Float → Float → Bool) : Float → Float → Float :=
  ifKnown fun a b => ofBool (holds a b)

def and : Float → Float → Float := compare fun a b => isTrue a && isTrue b

def or : Float → Float → Float := compare fun a b => isTrue a || isTrue b

/-- The remainder with the sign of the divisor; missing for a zero divisor. -/
def modulo (a b : Float) : Float :=
  if b == 0.0 then missing else a - b * (a / b).floor

/-- One with the sign of the cell. A zero stays the zero it is, and a missing cell missing. -/
def sign (x : Float) : Float :=
  if x > 0.0 then 1.0 else if x < 0.0 then -1.0 else x * 0.0

/-- The lesser of two known cells, the first of two equal ones. -/
def lesser (a b : Float) : Float := if b < a then b else a

/-- The greater of two known cells, the first of two equal ones. -/
def greater (a b : Float) : Float := if b > a then b else a

/-- The lesser of two cells, missing if one of them is. -/
def min : Float → Float → Float := ifKnown lesser

/-- The greater of two cells, missing if one of them is. -/
def max : Float → Float → Float := ifKnown greater

/-- One of two cells by the truth of a condition, missing if the condition is. -/
def select (condition a b : Float) : Float :=
  if condition.isNaN then missing else if isTrue condition then a else b

/-- The cell, or its replacement where it lies outside the bounds. -/
def tail (x lower upper replacement : Float) : Float :=
  if x < lower || x > upper then replacement else x

/-- The power of the size of the cell, with the sign of the cell. -/
def signedPower (x exponent : Float) : Float := sign x * x.abs.pow exponent

/--
The nearest integer, the even one of two equally near. Adding and taking away `2 ^ 52` rounds a
smaller magnitude to an integer in just that way; larger ones are integers already.
-/
def roundHalfEven (x : Float) : Float :=
  let unit := 4503599627370496.0
  if x.abs < unit then
    let rounded := (x.abs + unit) - unit
    if Double.isNegative x then -rounded else rounded
  else x

end PanelCalc.Cell
