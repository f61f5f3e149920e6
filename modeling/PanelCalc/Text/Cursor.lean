/-!
# Cursors

A place in a text: how many characters lie before it, and the characters from there on. Columns
count characters, so the column where the text ends is the same seen from every cursor in it.
-/

namespace PanelCalc.Text

structure Cursor where
  /-- The number of characters before this place. -/
  column : Nat
  /-- The characters from this place on. -/
  rest : List Char
deriving DecidableEq, Repr

namespace Cursor

/-- The place before the first character. -/
def start (text : String) : Cursor := ⟨0, text.toList⟩

def advance (cursor : Cursor) (count : Nat) : Cursor :=
  ⟨cursor.column + count, cursor.rest.drop count⟩

def endColumn (cursor : Cursor) : Nat := cursor.column + cursor.rest.length

@[simp] theorem endColumn_start (text : String) :
    (start text).endColumn = text.toList.length := by
  simp [start, endColumn]

theorem endColumn_advance (cursor : Cursor) (count : Nat)
    (within : count ≤ cursor.rest.length) :
    (cursor.advance count).endColumn = cursor.endColumn := by
  simp only [advance, endColumn, List.length_drop]
  omega

end Cursor

end PanelCalc.Text
