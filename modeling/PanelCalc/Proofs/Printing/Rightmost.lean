import PanelCalc.Proofs.Printing.Boundaries

/-! # Readings taken apart from the right

A goal takes all the calls and all the items that follow. Read up to a place,
without regard to what comes next, calls and items can be taken apart at the
last one, as their trees are. -/
namespace PanelCalc

/-- What can be called, with the calls after it up to a place. -/
inductive Callable (g : Grammar) : List Lexeme → Tree → List Lexeme → Prop
  | name {n ls} : Callable g (.identifier n :: ls) (.name n) ls
  | group {ls t rest} : Reads g .list ls t (.closeParen :: rest) →
      Callable g (.openParen :: ls) t rest
  | emptyCall {ls callee rest} : Callable g ls callee (.openParen :: .closeParen :: rest) →
      Callable g ls (.call callee (.literal .noArguments)) rest
  | call {ls callee mid x rest} : Callable g ls callee (.openParen :: mid) →
      Reads g .list mid x (.closeParen :: rest) → Callable g ls (.call callee x) rest

/-- Chains with commas between them, up to a place. -/
inductive Listing (g : Grammar) : List Lexeme → Tree → List Lexeme → Prop
  | first {ls t rest} : Reads g (.chain 0) ls t rest → Listing g ls t rest
  | next {ls t mid u rest} : Listing g ls t (.comma :: mid) → Reads g (.chain 0) mid u rest →
      Listing g ls (.binary "," t u) rest

variable {g : Grammar} {ls mid rest : List Lexeme} {t left : Tree}

theorem Reads.callable (h : Reads g (.calls left) mid t rest) (hc : Callable g ls left mid) :
    Callable g ls t rest := by
  generalize hgoal : Goal.calls left = goal at h
  induction h generalizing left with
  | called _ =>
    cases hgoal
    exact hc
  | emptyCall _ ih =>
    cases hgoal
    exact ih hc.emptyCall rfl
  | call h _ _ ih =>
    cases hgoal
    exact ih (hc.call h) rfl
  | _ => cases hgoal

theorem Reads.listing_of_items (h : Reads g (.items left) mid t rest) (hl : Listing g ls left mid) :
    Listing g ls t rest := by
  generalize hgoal : Goal.items left = goal at h
  induction h generalizing left with
  | listed _ =>
    cases hgoal
    exact hl
  | item h _ _ ih =>
    cases hgoal
    exact ih (hl.next h) rfl
  | _ => cases hgoal

theorem Reads.listing (h : Reads g .list ls t rest) : Listing g ls t rest := by
  cases h with
  | list h h' => exact h'.listing_of_items (.first h)

/-- A list that is no list of several values is a chain. -/
theorem Reads.chain_of_list (h : Reads g .list ls t rest) (ht : t.isList = false) :
    Reads g (.chain 0) ls t rest := by
  cases h.listing with
  | first h => exact h
  | next _ _ => cases ht

/-- An operand begins with a value that can be called, or with a lexeme that
settles what it is. -/
theorem Reads.callable_or (h : Reads g .operand ls t rest) (hs : ∀ s ls', ls ≠ .operator s :: ls') :
    Callable g ls t rest ∨ ls.head? ≠ some .openParen ∧ (∀ callee x, t ≠ .call callee x) ∧
      ∀ s x y, t ≠ .binary s x y := by
  cases h with
  | plus _ | minus _ _ => exact absurd rfl (hs _ _)
  | identifier h => exact .inl (h.callable .name)
  | group h h' => exact .inl (h'.callable (.group h))
  | named _ _ | number | constant | text => exact .inr (by simp)

theorem Callable.outer (h : Callable g ls t rest) : ∃ taken o, ls = taken ++ rest ∧
    outside 0 taken = some o ∧ .comma ∉ o := by
  induction h with
  | name => exact ⟨[_], _, rfl, rfl, by simp⟩
  | group h =>
    obtain ⟨inner, o, rfl, ho, -⟩ := h.outer
    exact ⟨enclosed inner, [], by simp [enclosed], outside_group ho rfl, by simp⟩
  | emptyCall _ ih =>
    obtain ⟨taken, o, rfl, ho, hc⟩ := ih
    refine ⟨taken ++ enclosed [], o ++ [], by simp [enclosed], ?_, by simpa using hc⟩
    exact outside_append_some ho (outside_group (a := []) rfl rfl)
  | call _ h ih =>
    obtain ⟨taken, o, rfl, ho, hc⟩ := ih
    obtain ⟨inner, o', rfl, ho', -⟩ := h.outer
    refine ⟨taken ++ enclosed inner, o ++ [], by simp [enclosed], ?_, by simpa using hc⟩
    exact outside_append_some ho (outside_group ho' rfl)

theorem Callable.head (h : Callable g ls t rest) :
    (∃ n ls', ls = .identifier n :: ls') ∨ ∃ ls', ls = .openParen :: ls' := by
  induction h with
  | name => exact .inl ⟨_, _, rfl⟩
  | group _ => exact .inr ⟨_, rfl⟩
  | emptyCall _ ih | call _ _ ih => exact ih

theorem Listing.outer (h : Listing g ls t rest) : ∃ taken o, ls = taken ++ rest ∧
    outside 0 taken = some o := by
  induction h with
  | first h =>
    obtain ⟨taken, o, rfl, ho, -⟩ := h.outer
    exact ⟨taken, o, rfl, ho⟩
  | next _ h ih =>
    obtain ⟨taken, o, rfl, ho⟩ := ih
    obtain ⟨taken', o', rfl, ho', -⟩ := h.outer
    exact ⟨taken ++ .comma :: taken', _, by simp,
      outside_append_some ho (outside_cons_some rfl ho')⟩

end PanelCalc
