/-!
# Shape errors

Why dates, securities and cells do not make up a panel, or why panels do not fit each other.
-/

namespace PanelCalc

/-- Why tables do not have, or cannot be given, a common shape. -/
inductive ShapeError where
  /-- The number of cells is not the one the index calls for. -/
  | cellCount (expected actual : Nat)
  /-- The date of a row does not come after that of the row before it. -/
  | unsortedDates (row : Nat)
  /-- A security is listed twice. -/
  | duplicateSecurity (symbol : String)
  /-- Two tables have different numbers of rows. -/
  | rowMismatch (left right : Nat)
  /-- Two panels with equally many rows have different dates. -/
  | dateMismatch (row : Nat)
  /-- A security belongs to one of two panels only. -/
  | securityMismatch (symbol : String)
  /-- Panels with different numbers of rows meet where no announcements are known. -/
  | missingAlignment (left right : Nat)
  /-- The announcements do not cover a security. -/
  | missingAnnouncements (symbol : String)
deriving DecidableEq, Repr

/-- The text shown for a shape error. -/
def ShapeError.message : ShapeError → String
  | cellCount expected actual =>
    s!"panel cell count mismatch: expected {expected}, got {actual}"
  | unsortedDates row => s!"dates must be strictly increasing (row {row})"
  | duplicateSecurity symbol => s!"duplicate security `{symbol}`"
  | rowMismatch left right => s!"row count mismatch: {left} vs {right}"
  | dateMismatch row => s!"date index mismatch at row {row}"
  | securityMismatch symbol =>
    s!"security sets differ: `{symbol}` is missing from one operand"
  | missingAlignment left right =>
    s!"panels with {left} and {right} rows need an announcement context to align"
  | missingAnnouncements symbol => s!"security `{symbol}` has no announcement dates"

end PanelCalc
