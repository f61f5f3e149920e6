/-!
# Character classes as ranges

A class of characters is listed as inclusive ranges of code points in increasing order.
-/

namespace PanelCalc.Text

/-- Inclusive ranges of code points. -/
abbrev CharRanges := List (Nat × Nat)

def CharRanges.contains (ranges : CharRanges) (c : Char) : Bool :=
  ranges.any fun range => range.1 ≤ c.toNat && c.toNat ≤ range.2

end PanelCalc.Text
