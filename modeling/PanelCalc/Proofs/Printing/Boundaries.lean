import PanelCalc.Proofs.Printing.Depth

/-! # Where the parts of a phrase end

What has been read for a goal is balanced, and outside of its parentheses it has
no comma unless it is a list, and no operator if it is an operand without an
operator before it. So the last operator, the last comma and the last call of a
phrase stand where its own tree has them. -/
namespace PanelCalc

variable {g : Grammar} {goal : Goal} {ls mid rest : List Lexeme} {t u left : Tree} {least : Int}

/-- What a goal takes outside of all parentheses. -/
def Goal.Outside : Goal → List Lexeme → Prop
  | operand, o | chain _, o | joins _ _, o => .comma ∉ o
  | calls _, o => o = []
  | list, _ | items _, _ => True

namespace Reads

/-- What has been read is balanced. -/
theorem outer (h : Reads g goal ls t rest) :
    ∃ taken o, ls = taken ++ rest ∧ outside 0 taken = some o ∧ goal.Outside o := by
  induction h with
  | plus _ ih | minus _ _ ih =>
    obtain ⟨taken, o, rfl, ho, hc⟩ := ih
    exact ⟨_, _, rfl, outside_cons_some rfl ho, by simpa [Goal.Outside] using hc⟩
  | named _ _ ih =>
    obtain ⟨taken, o, hls, ho, hc⟩ := ih
    refine ⟨.namedUnary _ :: taken, _, by rw [hls]; rfl, outside_cons_some rfl ho, ?_⟩
    simpa [Goal.Outside] using hc
  | number | constant | text => exact ⟨[_], _, rfl, rfl, by simp [Goal.Outside]⟩
  | identifier _ ih =>
    obtain ⟨taken, o, rfl, ho, rfl⟩ := ih
    exact ⟨_ :: taken, _, rfl, outside_cons_some rfl ho, by simp [Goal.Outside]⟩
  | group _ _ ih ih' =>
    obtain ⟨inner, o, rfl, ho, -⟩ := ih
    obtain ⟨taken, o', rfl, ho', rfl⟩ := ih'
    exact ⟨.openParen :: (inner ++ .closeParen :: taken), [], by simp, outside_group ho ho', by
      simp [Goal.Outside]⟩
  | called _ | joined _ | listed _ => exact ⟨[], [], rfl, rfl, by simp [Goal.Outside]⟩
  | emptyCall _ ih =>
    obtain ⟨taken, o, rfl, ho, rfl⟩ := ih
    exact ⟨.openParen :: .closeParen :: taken, [], rfl, outside_group (a := []) rfl ho, rfl⟩
  | call _ _ ih ih' =>
    obtain ⟨inner, o, rfl, ho, -⟩ := ih
    obtain ⟨taken, o', rfl, ho', rfl⟩ := ih'
    exact ⟨.openParen :: (inner ++ .closeParen :: taken), [], by simp, outside_group ho ho', rfl⟩
  | chain _ _ ih ih' =>
    obtain ⟨taken, o, rfl, ho, hc⟩ := ih
    obtain ⟨taken', o', rfl, ho', hc'⟩ := ih'
    refine ⟨taken ++ taken', _, by simp, outside_append_some ho ho', ?_⟩
    simp only [Goal.Outside, List.mem_append, not_or] at *
    exact ⟨hc, hc'⟩
  | @join _ _ s _ _ _ _ _ _ _ _ _ _ ih ih' =>
    obtain ⟨taken, o, rfl, ho, hc⟩ := ih
    obtain ⟨taken', o', rfl, ho', hc'⟩ := ih'
    refine ⟨.operator s :: (taken ++ taken'), _, by simp,
      outside_cons_some rfl (outside_append_some ho ho'), ?_⟩
    simp only [Goal.Outside, List.mem_append, List.mem_cons, not_or] at *
    exact ⟨by simp, hc, hc'⟩
  | list _ _ ih ih' =>
    obtain ⟨taken, o, rfl, ho, -⟩ := ih
    obtain ⟨taken', o', rfl, ho', -⟩ := ih'
    exact ⟨taken ++ taken', _, by simp, outside_append_some ho ho', trivial⟩
  | item _ _ ih ih' =>
    obtain ⟨taken, o, rfl, ho, -⟩ := ih
    obtain ⟨taken', o', rfl, ho', -⟩ := ih'
    exact ⟨.comma :: (taken ++ taken'), _, by simp,
      outside_cons_some rfl (outside_append_some ho ho'), trivial⟩

/-- An operand either is an operator applied to one, or has no operator outside
of its parentheses. -/
theorem operand_outer (h : Reads g .operand ls t rest) (hs : ∀ ls', ls ≠ .operator "+" :: ls') :
    (∃ s x, t = .unary s x) ∨ ∃ taken o, ls = taken ++ rest ∧ outside 0 taken = some o ∧
      ∀ s, .operator s ∉ o := by
  cases h with
  | plus _ => exact absurd rfl (hs _)
  | minus _ _ | named _ _ => exact .inl ⟨_, _, rfl⟩
  | number | constant | text => exact .inr ⟨[_], _, rfl, rfl, by simp⟩
  | @identifier name _ _ _ h =>
    obtain ⟨taken, o, rfl, ho, rfl⟩ := h.outer
    refine .inr ⟨.identifier name :: taken, [.identifier name], rfl, ?_, by simp⟩
    exact outside_cons_some rfl ho
  | group h h' =>
    obtain ⟨inner, o, rfl, ho, -⟩ := h.outer
    obtain ⟨taken, o', rfl, ho', rfl⟩ := h'.outer
    refine .inr ⟨enclosed inner ++ taken, [], by simp [enclosed], ?_, by simp⟩
    rw [outside_enclosed ho, ho']

/-- The last operator after an operand is the root of the tree. -/
theorem joins_split (h : Reads g (.joins least left) mid t rest) :
    (t = left ∧ mid = rest) ∨ ∃ pre o s p x y ls, t = .binary s x y ∧
      mid = pre ++ .operator s :: ls ∧ outside 0 pre = some o ∧ g.binaryPriority? s = some p ∧
      Reads g (.chain (p + 1)) ls y rest ∧
      (pre = [] ∧ x = left ∨ ∃ s' ls', pre = .operator s' :: ls') := by
  generalize hgoal : Goal.joins least left = goal at h
  induction h generalizing least left with
  | joined _ =>
    cases hgoal
    exact .inl ⟨rfl, rfl⟩
  | @join least left s p ls right mid t rest hp _ h h' _ ih =>
    cases hgoal
    right
    rcases ih rfl with ⟨rfl, rfl⟩ | ⟨pre, o, s', p', x, y, ls', rfl, rfl, ho, hp', hy, -⟩
    · exact ⟨[], [], s, p, _, _, _, rfl, rfl, rfl, hp, h, .inl ⟨rfl, rfl⟩⟩
    · obtain ⟨taken, o', rfl, ho', -⟩ := h.outer
      refine ⟨.operator s :: (taken ++ pre), .operator s :: (o' ++ o), s', p', x, y, ls', rfl,
        by simp, ?_, hp', hy, .inr ⟨_, _, rfl⟩⟩
      exact outside_cons_some rfl (outside_append_some ho' ho)
  | _ => cases hgoal

/-- Calls that take nothing up make nothing. -/
theorem calls_self (h : Reads g (.calls left) rest t rest) : t = left := by
  cases h with
  | called _ => rfl
  | emptyCall h =>
    have := h.length_le
    simp only [List.length_cons] at this
    omega
  | call h h' =>
    have := h.length_le
    have := h'.length_le
    simp only [List.length_cons] at *
    omega

/-- A chain that is read from what has no operator outside of its parentheses is
an operand. -/
theorem operand_of_chain {a o : List Lexeme} (h : Reads g (.chain least) (a ++ rest) t rest)
    (ha : outside 0 a = some o) (hs : ∀ s, .operator s ∉ o) :
    Reads g .operand (a ++ rest) t rest := by
  cases h with
  | chain h h' =>
    rcases h'.joins_split with ⟨rfl, rfl⟩ | ⟨pre, op, s, p, x, y, ls, rfl, rfl, hpre, -, hy, -⟩
    · exact h
    · obtain ⟨taken, oh, heq, ho, -⟩ := h.outer
      obtain ⟨taken', oy, rfl, -, -⟩ := hy.outer
      have heq : a ++ rest = (taken ++ pre ++ .operator s :: taken') ++ rest := by simpa using heq
      obtain rfl := List.append_cancel_right heq
      exact absurd (outside_of_append_cons (outside_append_some ho hpre) ha rfl).1 (hs s)

/-- An operator before its operand takes a chain. -/
theorem operand_unary {s : String} (h : Reads g .operand (unaryLexeme s :: ls) t rest)
    (hs : s ≠ "+") : ∃ p x, t = .unary s x ∧ g.unaryPriority? s = some p ∧
      Reads g (.chain (p + 1)) ls x rest ∧ (s ≠ "-" → ls.head? = some .openParen) := by
  generalize hl : unaryLexeme s :: ls = ls' at h
  unfold unaryLexeme at hl
  split at hl
  · rename_i hm
    cases h with
    | plus _ => exact absurd (Lexeme.operator.inj (List.cons.inj hl).1) hs
    | minus hp h =>
      cases hl
      exact ⟨_, _, rfl, hp, h, fun hne => absurd rfl hne⟩
    | _ => cases hl
  · cases h with
    | named hp h =>
      cases hl
      exact ⟨_, _, rfl, hp, h, fun _ => rfl⟩
    | _ => cases hl

/-- An operand that is read from parentheses alone is the list that is in them. -/
theorem list_of_enclosed {a o : List Lexeme} (h : Reads g .operand (enclosed a ++ rest) t rest)
    (ha : outside 0 a = some o) :
    Reads g .list (a ++ .closeParen :: rest) t (.closeParen :: rest) := by
  generalize hl : enclosed a ++ rest = ls at h
  cases h with
  | @group _ _ mid _ _ h h' =>
    obtain ⟨inner, oi, rfl, hi, -⟩ := h.outer
    have heq : a ++ .closeParen :: rest = inner ++ .closeParen :: mid := by
      simpa [enclosed] using hl
    obtain ⟨rfl, rfl⟩ := outside_unique ha hi heq
    rw [h'.calls_self]
    exact h
  | _ => cases hl

end Reads

end PanelCalc
