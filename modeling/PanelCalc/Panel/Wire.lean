import PanelCalc.Panel.Basic

/-!
# The exchanged form of a panel

Panels are exchanged as dates, securities and rows of optional cells. A cell that is missing is left
out. What a number is read back as once it has been written is up to the writer; JSON has no form
for one that is not finite.
-/

namespace PanelCalc.Panel

structure Wire where
  dates : List Date
  symbols : List String
  rows : List (List (Option Float))

def toWireCell (x : Float) : Option Float := if x.isNaN then none else some x

/-- What is written of a panel. -/
def written (p : Panel) : Wire where
  dates := p.dates
  symbols := p.symbols
  rows := (List.range p.rows).map fun row => (p.rowCells row).map toWireCell

/-- What is read where a writer wrote. A cell that was left out stays so. -/
def Wire.carried (write : Float → Option Float) (wire : Wire) : Wire :=
  { wire with rows := wire.rows.map (·.map (·.bind write)) }

/-- A panel as it is read after it was written. -/
def sent (write : Float → Option Float) (p : Panel) : Wire := p.written.carried write

def jsonNumber? (x : Float) : Option Float := if x.isFinite then some x else none

/-- A panel as it is exchanged in JSON. -/
def toWire (p : Panel) : Wire := p.sent jsonNumber?

/-- The panel of an exchanged form. -/
def ofWire (wire : Wire) : Except ShapeError Panel :=
  ofRows wire.dates wire.symbols (wire.rows.map (·.map (·.getD Cell.missing)))

end PanelCalc.Panel
