import PanelCalc.Panel.Basic

/-!
# Announcements

For every row of a panel and every security, the date on which the observation became known. An
observation is never seen before that date, and from then on until a later one takes its place.
-/

namespace PanelCalc

/-- The announcement dates of observations, row after row; `none` for one never announced. -/
structure Announcements where
  symbols : List String
  rows : List (List (Option Date))
deriving DecidableEq

namespace Announcements

def ofRows (symbols : List String) (rows : List (List (Option Date))) :
    Except ShapeError Announcements := do
  Panel.checkSymbols symbols
  match rows.find? (·.length != symbols.length) with
  | some row => throw (.cellCount symbols.length row.length)
  | none => return { symbols, rows }

def announcedAt? (a : Announcements) (row : Nat) (symbol : String) : Option Date := do
  let col ← a.symbols.idxOf? symbol
  (← (← a.rows[row]?)[col]?)

def column? (a : Announcements) (symbol : String) : Option (List (Option Date)) :=
  (a.symbols.idxOf? symbol).map fun col => a.rows.map fun row => row.getD col none

/-- The later of a known announcement and one of row `row`, if the latter is known by `day`. -/
def supersede (day : Date) (known : Option (Date × Nat)) (announced : Option Date) (row : Nat) :
    Option (Date × Nat) :=
  match announced, known with
  | some date, some (earlier, _) =>
    if date ≤ day ∧ earlier ≤ date then some (date, row) else known
  | some date, none => if date ≤ day then some (date, row) else none
  | none, _ => known

/-- The row announced last up to a day. Of rows announced on one date the last one counts. -/
def latestRow? (announced : List (Option Date)) (day : Date) : Option Nat :=
  let latest := announced.zipIdx.foldl (fun known (date, row) => supersede day known date row) none
  latest.map (·.2)

end Announcements

/-- What was known on each of the given days: for every security its latest observation. -/
def Panel.align (p : Panel) (announcements : Announcements) (days : List Date) :
    Except ShapeError Panel := do
  Panel.checkDates days
  if p.rows ≠ announcements.rows.length then
    throw (.rowMismatch p.rows announcements.rows.length)
  let columns ← p.symbols.mapM fun symbol =>
    match announcements.column? symbol with
    | some column => .ok (days.map (Announcements.latestRow? column))
    | none => .error (.missingAnnouncements symbol)
  return Panel.tabulate days p.symbols fun day col =>
    match (columns.getD col []).getD day none with
    | some row => p.cell row col
    | none => Cell.missing

end PanelCalc
