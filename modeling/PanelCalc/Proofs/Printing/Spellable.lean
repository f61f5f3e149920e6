import PanelCalc.Proofs.Lexeme.Scanning

/-! # Trees that are read from a text

Every name, symbol and number of a tree that has been read was a lexeme of the
text, and so has a spelling. -/
namespace PanelCalc

variable {H : Type} {v : Vocabulary H}

/-- A tree whose names, symbols and numbers can be found in a text. -/
def Tree.Spellable (v : Vocabulary H) : Tree → Prop
  | literal (.number x) => Double.IsUnsigned x
  | literal (.text _) => True
  | literal .noArguments => False
  | name n => v.Knows (.identifier n)
  | unary s x => (s = "-" ∨ v.Knows (.namedUnary s)) ∧ (v.grammar.unaryPriority? s).isSome ∧
      x.Spellable v
  | binary s x y => (s = "," ∨ s ≠ "," ∧ v.Knows (.operator s) ∧
      (v.grammar.binaryPriority? s).isSome) ∧ x.Spellable v ∧ y.Spellable v
  | call callee x => callee.Spellable v ∧ (x = literal .noArguments ∨ x.Spellable v)

/-- The tree that a goal starts from. -/
def Goal.given : Goal → Option Tree
  | operand | chain _ | list => none
  | calls t | joins _ t | items t => some t

/-- What is read from known lexemes can be spelled. -/
theorem Reads.spellable {goal : Goal} {ls rest : List Lexeme} {t : Tree}
    (h : Reads v.grammar goal ls t rest) (hl : ∀ l ∈ ls, v.Produces l)
    (hg : ∀ u ∈ goal.given, u.Spellable v) : t.Spellable v := by
  have tail {l : Lexeme} {ls : List Lexeme} (hl : ∀ l' ∈ l :: ls, v.Produces l') :
      ∀ l' ∈ ls, v.Produces l' := fun l' h => hl l' (List.mem_cons_of_mem _ h)
  have none : ∀ u ∈ (none : Option Tree), u.Spellable v := by simp
  induction h with
  | plus _ ih => exact ih (tail hl) none
  | minus hp _ ih => exact ⟨.inl rfl, by simp [hp], ih (tail hl) none⟩
  | named hp _ ih =>
    exact ⟨.inr (hl _ List.mem_cons_self).knows, by simp [hp], ih (tail hl) none⟩
  | number | constant => exact (hl _ List.mem_cons_self).knows
  | text => trivial
  | identifier _ ih =>
    refine ih (tail hl) ?_
    rintro u ⟨⟩
    exact (hl _ List.mem_cons_self).knows
  | group h _ ih ih' =>
    refine ih' (fun l hm => hl l (.tail _ (h.suffix.subset (.tail _ hm)))) ?_
    rintro u ⟨⟩
    exact ih (tail hl) none
  | called _ | joined _ | listed _ => exact hg _ rfl
  | emptyCall _ ih =>
    refine ih (tail (tail hl)) ?_
    rintro u ⟨⟩
    exact ⟨hg _ rfl, .inl rfl⟩
  | call h _ ih ih' =>
    refine ih' (fun l hm => hl l (.tail _ (h.suffix.subset (.tail _ hm)))) ?_
    rintro u ⟨⟩
    exact ⟨hg _ rfl, .inr (ih (tail hl) none)⟩
  | chain h _ ih ih' =>
    refine ih' (fun l hm => hl l (h.suffix.subset hm)) ?_
    rintro u ⟨⟩
    exact ih hl none
  | join hp _ h _ ih ih' =>
    refine ih' (fun l hm => hl l (.tail _ (h.suffix.subset hm))) ?_
    rintro u ⟨⟩
    have hs := hl _ List.mem_cons_self
    have hne : ∀ s, v.Produces (.operator s) → s ≠ "," := by
      rintro s h rfl
      exact h.ne_comma rfl
    exact ⟨.inr ⟨hne _ hs, hs.knows, by simp [hp]⟩, hg _ rfl, ih (tail hl) none⟩
  | list h _ ih ih' =>
    refine ih' (fun l hm => hl l (h.suffix.subset hm)) ?_
    rintro u ⟨⟩
    exact ih hl none
  | item h _ ih ih' =>
    refine ih' (fun l hm => hl l (.tail _ (h.suffix.subset hm))) ?_
    rintro u ⟨⟩
    exact ⟨.inl rfl, hg _ rfl, ih (tail hl) none⟩

end PanelCalc
