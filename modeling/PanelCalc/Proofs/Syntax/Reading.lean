import PanelCalc.Proofs.Syntax.Phrases
import PanelCalc.Proofs.Syntax.Tree
import PanelCalc.Vocabulary.Priority

/-! # Reading by precedence climbing

The reading of lexemes as a tree, from left to right and by recursion: what a
parenthesis holds is read on its own before anything around it. An operator
before its operand takes every operator after it that binds more tightly, an
operator between operands those to its right that do, and calls bind most
tightly of all. -/
namespace PanelCalc

/-- What is being read. -/
inductive Goal where
  /-- One operand with its calls, or an operator with the operand it takes. -/
  | operand
  /-- The calls of a value. -/
  | calls (callee : Tree)
  /-- Operands with operators of at least a priority between them. -/
  | chain (least : Int)
  /-- The operators of at least a priority after an operand. -/
  | joins (least : Int) (left : Tree)
  /-- Chains with commas between them. -/
  | list
  /-- The commas after a chain. -/
  | items (first : Tree)

/-- Whether a goal takes up at least one lexeme. -/
def Goal.consumes : Goal → Bool
  | operand | chain _ | list => true
  | calls _ | joins _ _ | items _ => false

/-- No operator of at least a priority comes next. -/
def Stops (g : Grammar) (least : Int) (lexemes : List Lexeme) : Prop :=
  ∀ s p rest, lexemes = .operator s :: rest → g.binaryPriority? s = some p → p < least

/-- What can come after a goal. -/
def Goal.Ends (g : Grammar) : Goal → List Lexeme → Prop
  | operand, _ | list, _ => True
  | calls _, rest => rest.head? ≠ some .openParen
  | chain least, rest | joins least _, rest => Stops g least rest
  | items _, rest => rest.head? ≠ some .comma

/-- The tree read from lexemes, and the lexemes after it. -/
inductive Reads (g : Grammar) : Goal → List Lexeme → Tree → List Lexeme → Prop
  | plus {ls t rest} : Reads g .operand ls t rest → Reads g .operand (.operator "+" :: ls) t rest
  | minus {p ls t rest} : g.unaryPriority? "-" = some p → Reads g (.chain (p + 1)) ls t rest →
      Reads g .operand (.operator "-" :: ls) (.unary "-" t) rest
  | named {name p ls t rest} : g.unaryPriority? name = some p →
      Reads g (.chain (p + 1)) (.openParen :: ls) t rest →
      Reads g .operand (.namedUnary name :: .openParen :: ls) (.unary name t) rest
  | number {x ls} : Reads g .operand (.number x :: ls) (.literal (.number x)) ls
  | constant {x ls} : Reads g .operand (.constant x :: ls) (.literal (.number x)) ls
  | text {s ls} : Reads g .operand (.text s :: ls) (.literal (.text s)) ls
  | identifier {name ls t rest} : Reads g (.calls (.name name)) ls t rest →
      Reads g .operand (.identifier name :: ls) t rest
  | group {ls t mid u rest} : Reads g .list ls t (.closeParen :: mid) →
      Reads g (.calls t) mid u rest → Reads g .operand (.openParen :: ls) u rest
  | called {callee ls} : ls.head? ≠ some .openParen → Reads g (.calls callee) ls callee ls
  | emptyCall {callee ls t rest} :
      Reads g (.calls (.call callee (.literal .noArguments))) ls t rest →
      Reads g (.calls callee) (.openParen :: .closeParen :: ls) t rest
  | call {callee ls x mid t rest} : Reads g .list ls x (.closeParen :: mid) →
      Reads g (.calls (.call callee x)) mid t rest →
      Reads g (.calls callee) (.openParen :: ls) t rest
  | chain {least ls t mid u rest} : Reads g .operand ls t mid →
      Reads g (.joins least t) mid u rest → Reads g (.chain least) ls u rest
  | joined {least left ls} : Stops g least ls → Reads g (.joins least left) ls left ls
  | join {least left s p ls right mid t rest} : g.binaryPriority? s = some p → least ≤ p →
      Reads g (.chain (p + 1)) ls right mid →
      Reads g (.joins least (.binary s left right)) mid t rest →
      Reads g (.joins least left) (.operator s :: ls) t rest
  | list {ls t mid u rest} : Reads g (.chain 0) ls t mid → Reads g (.items t) mid u rest →
      Reads g .list ls u rest
  | listed {first ls} : ls.head? ≠ some .comma → Reads g (.items first) ls first ls
  | item {first ls next mid t rest} : Reads g (.chain 0) ls next mid →
      Reads g (.items (.binary "," first next)) mid t rest →
      Reads g (.items first) (.comma :: ls) t rest

namespace Reads

variable {g : Grammar} {goal : Goal} {ls mid rest rest' : List Lexeme} {t t' u : Tree}

theorem of_group (h : Reads g .list (ls ++ .closeParen :: mid) t (.closeParen :: mid))
    (h' : Reads g (.calls t) mid u rest) : Reads g .operand (enclosed ls ++ mid) u rest := by
  have := Reads.group h h'
  simpa [enclosed] using this

/-- What is left is a suffix of what there was. -/
theorem suffix (h : Reads g goal ls t rest) : rest <:+ ls := by
  induction h with
  | number | constant | text => exact List.suffix_cons ..
  | called _ | joined _ | listed _ => exact List.suffix_refl _
  | plus _ ih | minus _ _ ih | named _ _ ih | identifier _ ih =>
    exact ih.trans (List.suffix_cons ..)
  | emptyCall _ ih => exact ih.trans ((List.suffix_cons ..).trans (List.suffix_cons ..))
  | group _ _ ih ih' | call _ _ ih ih' =>
    exact ih'.trans ((List.suffix_cons ..).trans (ih.trans (List.suffix_cons ..)))
  | chain _ _ ih ih' | list _ _ ih ih' => exact ih'.trans ih
  | join _ _ _ _ ih ih' | item _ _ ih ih' => exact ih'.trans (ih.trans (List.suffix_cons ..))

theorem length_le (h : Reads g goal ls t rest) : rest.length ≤ ls.length :=
  h.suffix.length_le

/-- An operand, a chain and a list are not empty. -/
theorem length_lt (h : Reads g goal ls t rest) (consumes : goal.consumes = true) :
    rest.length < ls.length := by
  induction h with
  | number | constant | text => simp
  | called _ | joined _ | listed _ | join _ _ _ _ | item _ _ | emptyCall _ | call _ _ =>
    cases consumes
  | plus h _ | minus _ h _ | named _ h _ | identifier h _ =>
    have := h.length_le
    simp only [List.length_cons] at *
    omega
  | group h h' _ _ =>
    have := h.length_le
    have := h'.length_le
    simp only [List.length_cons] at *
    omega
  | chain _ h' ih _ | list _ h' ih _ =>
    have := ih rfl
    have := h'.length_le
    omega

/-- Nothing that a goal could have taken comes after it. -/
theorem ends (h : Reads g goal ls t rest) : goal.Ends g rest := by
  induction h with
  | called h | joined h | listed h => exact h
  | emptyCall _ ih => exact ih
  | call _ _ _ ih | chain _ _ _ ih | join _ _ _ _ _ ih | item _ _ _ ih => exact ih
  | _ => trivial

/-- What takes up a lexeme takes no closing parenthesis first. -/
theorem not_closeParen (h : Reads g goal (.closeParen :: ls) t rest) : goal.consumes = false := by
  generalize hc : Lexeme.closeParen :: ls = all at h
  induction h with
  | chain _ _ ih _ | list _ _ ih _ => exact absurd (ih hc) (by simp [Goal.consumes])
  | called _ | joined _ | listed _ | emptyCall _ _ | call _ _ | join _ _ _ _ | item _ _ => rfl
  | _ => cases hc

theorem of_plus (h : Reads g .operand (.operator "+" :: ls) t rest) :
    Reads g .operand ls t rest := by
  generalize hl : Lexeme.operator "+" :: ls = all at h
  cases h with
  | plus h =>
    cases hl
    exact h
  | _ => simp at hl

theorem of_minus (h : Reads g .operand (.operator "-" :: ls) t rest) :
    ∃ p u, g.unaryPriority? "-" = some p ∧ Reads g (.chain (p + 1)) ls u rest ∧
      t = .unary "-" u := by
  generalize hl : Lexeme.operator "-" :: ls = all at h
  cases h with
  | minus hp h =>
    cases hl
    exact ⟨_, _, hp, h, rfl⟩
  | _ => simp at hl

/-- **Lexemes have one reading.** -/
theorem unique (h : Reads g goal ls t rest) (h' : Reads g goal ls t' rest') :
    t = t' ∧ rest = rest' := by
  induction h generalizing t' rest' with
  | plus _ ih => exact ih h'.of_plus
  | minus hp _ ih =>
    obtain ⟨p', u', hp', h', rfl⟩ := h'.of_minus
    cases hp.symm.trans hp'
    obtain ⟨rfl, rfl⟩ := ih h'
    exact ⟨rfl, rfl⟩
  | named hp _ ih =>
    cases h' with
    | named hp' h' =>
      cases hp.symm.trans hp'
      obtain ⟨rfl, rfl⟩ := ih h'
      exact ⟨rfl, rfl⟩
  | number | constant | text =>
    cases h'
    exact ⟨rfl, rfl⟩
  | identifier _ ih =>
    cases h' with
    | identifier h' => exact ih h'
  | group _ _ ih ih' =>
    cases h' with
    | group hlist hcalls =>
      obtain ⟨rfl, hmid⟩ := ih hlist
      cases hmid
      exact ih' hcalls
  | called hn =>
    cases h' with
    | called _ => exact ⟨rfl, rfl⟩
    | emptyCall _ | call _ _ => exact absurd rfl hn
  | emptyCall _ ih =>
    cases h' with
    | called hn => exact absurd rfl hn
    | emptyCall h' => exact ih h'
    | call hlist _ => cases hlist.not_closeParen
  | call hlist _ ih ih' =>
    cases h' with
    | called hn => exact absurd rfl hn
    | emptyCall _ => cases hlist.not_closeParen
    | call hlist' hcalls =>
      obtain ⟨rfl, hmid⟩ := ih hlist'
      cases hmid
      exact ih' hcalls
  | chain _ _ ih ih' =>
    cases h' with
    | chain hfirst hrest =>
      obtain ⟨rfl, rfl⟩ := ih hfirst
      exact ih' hrest
  | list _ _ ih ih' =>
    cases h' with
    | list hfirst hrest =>
      obtain ⟨rfl, rfl⟩ := ih hfirst
      exact ih' hrest
  | joined hs =>
    cases h' with
    | joined _ => exact ⟨rfl, rfl⟩
    | join hp hl _ _ => exact absurd (hs _ _ _ rfl hp) (by omega)
  | join hp hl _ _ ih ih' =>
    cases h' with
    | joined hs => exact absurd (hs _ _ _ rfl hp) (by omega)
    | join hp' _ hright hrest =>
      cases hp.symm.trans hp'
      obtain ⟨rfl, rfl⟩ := ih hright
      exact ih' hrest
  | listed hn =>
    cases h' with
    | listed _ => exact ⟨rfl, rfl⟩
    | item _ _ => exact absurd rfl hn
  | item _ _ ih ih' =>
    cases h' with
    | listed hn => exact absurd rfl hn
    | item hnext hrest =>
      obtain ⟨rfl, rfl⟩ := ih hnext
      exact ih' hrest

end Reads

end PanelCalc
