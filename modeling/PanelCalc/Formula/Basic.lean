import PanelCalc.Formula.Reader
import PanelCalc.Invoke

/-!
# Formulas

A formula is a program together with the vocabulary it was read with. Registering more operators or
functions later makes another vocabulary and leaves earlier formulas as they are.
-/

namespace PanelCalc

structure Formula (H : Type) where
  program : Program
  vocabulary : Vocabulary H

namespace Formula

variable {H : Type}

def parse (vocabulary : Vocabulary H) (text : String) : Except CompileError (Formula H) :=
  (vocabulary.grammar.read text).map fun program => { program, vocabulary }

theorem parse_of_read {vocabulary : Vocabulary H} {text : String} {program : Program}
    (h : (vocabulary.grammar.read text).toOption = some program) :
    parse vocabulary text = .ok { program, vocabulary } := by
  unfold parse
  cases read : vocabulary.grammar.read text with
  | error e => rw [read] at h; cases h
  | ok found => rw [read] at h; cases h; rfl

theorem parse_eq_ok {vocabulary : Vocabulary H} {text : String} {f : Formula H} :
    parse vocabulary text = .ok f ↔
      ∃ program, vocabulary.grammar.read text = .ok program ∧ f = { program, vocabulary } := by
  unfold parse
  cases vocabulary.grammar.read text <;> simp [Except.map, eq_comm]

theorem parse_eq_error {vocabulary : Vocabulary H} {text : String} {e : CompileError} :
    parse vocabulary text = .error e ↔ vocabulary.grammar.read text = .error e := by
  unfold parse
  cases vocabulary.grammar.read text <;> simp [Except.map]

/-- The names that a program mentions and that are no functions, in the order of first mention. -/
def freeVariables (f : Formula H) : List String :=
  (f.program.filterMap fun
    | .var name => if f.vocabulary.isFunction name then none else some name
    | _ => none).eraseDups

def substitute (f : Formula H) (name : String) (replacement : Formula H) : Formula H :=
  { f with
    program := f.program.flatMap fun step =>
      if step = .var name then replacement.program else [step] }

/-- The formula with that of a text, read with the same vocabulary, in place of a name. -/
def substituteText (f : Formula H) (name text : String) : Except CompileError (Formula H) :=
  (parse f.vocabulary text).map (f.substitute name)

end Formula

end PanelCalc
