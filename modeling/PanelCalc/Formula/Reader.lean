import PanelCalc.Formula.Builder
import PanelCalc.Lexeme.Scan

/-!
# Reading programs

Lexemes are taken as they are scanned, so that of several errors in a formula the first one is
reported, whatever its kind.
-/

namespace PanelCalc

open Text (Cursor)

/-- Hands the lexemes from a place on to `take`, one after the other, until the text ends. -/
def Lexeme.fold {σ : Type} (classify : String → Lexeme)
    (take : σ → Located → Except CompileError σ) (state : σ) (cursor : Cursor) :
    Except CompileError σ :=
  match _found : Lexeme.next? classify cursor with
  | .error error => .error error
  | .ok none => .ok state
  | .ok (some (located, next)) =>
    match take state located with
    | .error error => .error error
    | .ok state => Lexeme.fold classify take state next
termination_by cursor.rest.length
decreasing_by exact Lexeme.next?_length_lt _found

def Lexeme.ofText (classify : String → Lexeme) (text : String) :
    Except CompileError (List Located) :=
  (Lexeme.fold classify (fun found located => .ok (located :: found)) [] (Cursor.start text)).map
    List.reverse

namespace Grammar

/-- Takes one lexeme, and blames its column for a fault. -/
def take (g : Grammar) (b : Builder) (located : Located) : Except CompileError Builder :=
  (b.accept g located.lexeme).mapError fun fault => ⟨located.column, .structural fault⟩

def read (g : Grammar) (text : String) : Except CompileError Program := do
  let built ← Lexeme.fold g.classify g.take Builder.start (Cursor.start text)
  built.finish.mapError fun fault => ⟨(Cursor.start text).endColumn, .structural fault⟩

end Grammar

end PanelCalc
