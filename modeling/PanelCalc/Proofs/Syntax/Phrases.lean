import PanelCalc.Formula.Grammar

/-! # The phrases of formulas

The grammar of formulas, without regard to priorities:

    list    = expr {',' expr}
    expr    = operand {operator operand}
    operand = sign operand | namedUnary group calls | number | constant | text
            | identifier calls | group calls
    group   = '(' list ')'
    calls   = {'(' [list] ')'}

A plus before an operand always is a sign; every other operator needs an entry
in the tables. -/
namespace PanelCalc

/-- Lexemes in parentheses. -/
def enclosed (ls : List Lexeme) : List Lexeme := .openParen :: (ls ++ [.closeParen])

/-- The kinds of phrases. -/
inductive Phrase where
  | list
  | expr
  | operand
  | group
  | calls
deriving DecidableEq, Repr

/-- The lexemes that make up a phrase. -/
inductive Derives (g : Grammar) : Phrase → List Lexeme → Prop
  | single {e} : Derives g .expr e → Derives g .list e
  | comma {l e} : Derives g .list l → Derives g .expr e → Derives g .list (l ++ .comma :: e)
  | alone {o} : Derives g .operand o → Derives g .expr o
  | binary {e s o} : Derives g .expr e → (g.binaryPriority? s).isSome → Derives g .operand o →
      Derives g .expr (e ++ .operator s :: o)
  | plus {o} : Derives g .operand o → Derives g .operand (.operator "+" :: o)
  | minus {o} : (g.unaryPriority? "-").isSome → Derives g .operand o →
      Derives g .operand (.operator "-" :: o)
  | named {name p c} : (g.unaryPriority? name).isSome → Derives g .group p → Derives g .calls c →
      Derives g .operand (.namedUnary name :: (p ++ c))
  | number {x} : Derives g .operand [.number x]
  | constant {x} : Derives g .operand [.constant x]
  | text {s} : Derives g .operand [.text s]
  | identifier {name c} : Derives g .calls c → Derives g .operand (.identifier name :: c)
  | grouped {p c} : Derives g .group p → Derives g .calls c → Derives g .operand (p ++ c)
  | group {l} : Derives g .list l → Derives g .group (.openParen :: (l ++ [.closeParen]))
  | uncalled : Derives g .calls []
  | emptyCall {c} : Derives g .calls c → Derives g .calls (.openParen :: .closeParen :: c)
  | call {l c} : Derives g .list l → Derives g .calls c →
      Derives g .calls (.openParen :: (l ++ .closeParen :: c))

namespace Derives

variable {g : Grammar} {e o : List Lexeme}

/-- Chains of operands join to a longer chain. -/
theorem join (hl : Derives g .expr e) {s : String} (hs : (g.binaryPriority? s).isSome)
    (hr : Derives g .expr o) : Derives g .expr (e ++ .operator s :: o) := by
  generalize hp : Phrase.expr = phrase at hr
  induction hr with
  | alone ho => exact .binary hl hs ho
  | binary he hs' ho ih =>
    have := Derives.binary (ih rfl) hs' ho
    rwa [List.append_assoc] at this
  | _ => cases hp

end Derives

end PanelCalc
