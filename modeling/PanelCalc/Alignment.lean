import PanelCalc.Announcements
import PanelCalc.Panel.Reorder

/-!
# Alignment

Panels observed at different frequencies meet in one formula. Announcements and a calendar of
trading dates say how a panel is brought onto the dates of another one or onto the trading dates,
and the mode of alignment says when that happens.
-/

namespace PanelCalc

/-- Announcements and the dates on which trading took place. -/
structure TradingCalendar where
  announcements : Announcements
  tradeDates : List Date

def TradingCalendar.ofDates (announcements : Announcements) (tradeDates : List Date) :
    Except ShapeError TradingCalendar := do
  Panel.checkDates tradeDates
  return { announcements, tradeDates }

/-- When panels are aligned. -/
inductive Alignment where
  /-- Never: no announcements are known. -/
  | never
  /-- Where panels of different frequencies meet, and before securities are ranked. -/
  | whenNeeded (calendar : TradingCalendar)
  /-- Also before any operation that works cell by cell. -/
  | always (calendar : TradingCalendar)

namespace Alignment

/-- The calendar to align by. -/
def calendar? : Alignment → Option TradingCalendar
  | never => none
  | whenNeeded calendar | always calendar => some calendar

/-- The panel on the trading dates; without a calendar, or on these dates already, as it is. -/
def rebase (alignment : Alignment) (p : Panel) : Except ShapeError Panel :=
  match alignment.calendar? with
  | some calendar =>
    if p.dates = calendar.tradeDates then .ok p
    else p.align calendar.announcements calendar.tradeDates
  | none => .ok p

/-- The panel as an operand of a cell-by-cell operation. -/
def prepare (alignment : Alignment) (p : Panel) : Except ShapeError Panel :=
  match alignment with
  | always _ => alignment.rebase p
  | _ => .ok p

def firstDifference? (left right : List Date) : Option Nat :=
  (left.zip right).findIdx? fun (a, b) => a ≠ b

/-- The panel on the dates of another one. Only a panel with fewer rows can be aligned. -/
def conformDates (alignment : Alignment) (reference p : Panel) : Except ShapeError Panel :=
  if p.rows = reference.rows then
    match firstDifference? reference.dates p.dates with
    | some row => .error (.dateMismatch row)
    | none => .ok p
  else
    match alignment.calendar? with
    | none => .error (.missingAlignment reference.rows p.rows)
    | some calendar =>
      if reference.rows < p.rows then .error (.rowMismatch reference.rows p.rows)
      else p.align calendar.announcements reference.dates

/-- The panel on the dates of another one and with its securities in the other's order. -/
def conform (alignment : Alignment) (reference p : Panel) : Except ShapeError Panel := do
  if reference.sameIndex p then return p
  let onDates ← alignment.conformDates reference p
  if onDates.symbols = reference.symbols then return onDates
  onDates.reorder reference.symbols

/-- Two panels on one index: that of the panel with more rows, or of the first. -/
def reconcile (alignment : Alignment) (left right : Panel) : Except ShapeError (Panel × Panel) := do
  let left ← alignment.prepare left
  let right ← alignment.prepare right
  if left.rows < right.rows then return (← alignment.conform right left, right)
  else return (left, ← alignment.conform left right)

end Alignment

end PanelCalc
