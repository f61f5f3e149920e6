/-!
# Priorities

How tightly operators bind. Every level of parentheses raises the priorities inside it by more than
any two operators of one level differ, so that a single comparison settles which of two operators
binds first. Depths and raised priorities are counted in 32 bits and wrap around, as arithmetic
without overflow checks does.
-/

namespace PanelCalc.Priority

/-- What a level of parentheses adds. -/
def depthStep : Int := 10

/-- The priority of a call at the depth of its argument list. -/
def call : Int := -2

/-- The priority of the comma where a vocabulary has none. -/
def comma : Int := -1

/-- The priority of the built-in operators that are written like functions. -/
def named : Int := 7

/-- The highest priority of a registered operator: below a call one level further in. -/
def highest : Int := depthStep + call - 1

/-- The priority of an operator at a depth of parentheses. -/
def atDepth (priority : Int) (depth : Int32) : Int32 := .ofInt priority + depth * .ofInt depthStep

end PanelCalc.Priority
