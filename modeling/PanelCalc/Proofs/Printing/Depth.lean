import PanelCalc.Proofs.Printing.Brackets

/-! # What stands outside of parentheses

Where a phrase ends is settled by its parentheses: whatever has been read is
balanced, and of two balanced beginnings that are followed by a closing
parenthesis neither is longer than the other. An operator or a comma outside of
all parentheses can be in a few places only. -/
namespace PanelCalc

/-- The lexemes outside of all parentheses, of which `depth` are open at first
and none may be left open. -/
def outside : Nat → List Lexeme → Option (List Lexeme)
  | 0, [] => some []
  | _ + 1, [] => none
  | depth, .openParen :: ls => outside (depth + 1) ls
  | 0, .closeParen :: _ => none
  | depth + 1, .closeParen :: ls => outside depth ls
  | 0, l :: ls => (outside 0 ls).map (l :: ·)
  | depth + 1, _ :: ls => outside (depth + 1) ls

/-- Whether a lexeme opens or closes. -/
def Lexeme.isParen : Lexeme → Bool
  | openParen | closeParen => true
  | _ => false

variable {a b o : List Lexeme} {depth : Nat} {l : Lexeme}

theorem outside_append (h : outside depth a = some o) :
    outside depth (a ++ b) = (outside 0 b).map (o ++ ·) := by
  fun_induction outside depth a generalizing o with
  | case1 => cases h; simp
  | case2 => cases h
  | case3 depth ls ih => simpa [outside] using ih h
  | case4 => cases h
  | case5 depth ls ih => simpa [outside] using ih h
  | case6 l ls ho hc ih =>
    obtain ⟨o', h', rfl⟩ := Option.map_eq_some_iff.mp h
    rw [List.cons_append, outside, ih h'] <;> simp_all [Function.comp_def]
  | case7 depth l ls ho hc ih =>
    rw [List.cons_append, outside, ih h] <;> simp_all

theorem outside_inside {e : Nat} (h : outside depth a = some o) :
    outside (depth + e + 1) (a ++ .closeParen :: b) = outside e b := by
  fun_induction outside depth a generalizing o with
  | case1 => simp [outside]
  | case2 => cases h
  | case3 depth ls ih =>
    rw [List.cons_append, outside, ← ih h]
    congr 1
    omega
  | case4 => cases h
  | case5 depth ls ih =>
    have := ih h
    rw [show depth + 1 + e + 1 = depth + e + 1 + 1 by omega, List.cons_append, outside]
    exact this
  | case6 l ls ho hc ih =>
    obtain ⟨o', h', rfl⟩ := Option.map_eq_some_iff.mp h
    rw [List.cons_append, outside, ih h'] <;> simp_all
  | case7 depth l ls ho hc ih =>
    rw [show depth + 1 + e + 1 = depth + 1 + e + 1 from rfl, List.cons_append, outside, ih h] <;>
      simp_all

/-- Nothing in parentheses is outside of them. -/
theorem outside_enclosed (h : outside 0 a = some o) :
    outside 0 (enclosed a ++ b) = outside 0 b := by
  have := outside_inside (e := 0) (b := b) h
  simpa [enclosed, outside] using this

theorem outside_group {o' : List Lexeme} (h : outside 0 a = some o) (h' : outside 0 b = some o') :
    outside 0 (.openParen :: (a ++ .closeParen :: b)) = some o' := by
  have hb := outside_enclosed (b := b) h
  rw [h'] at hb
  simpa [enclosed] using hb

theorem outside_cons (hl : l.isParen = false) :
    outside 0 (l :: a) = (outside 0 a).map (l :: ·) := by
  cases l <;> first | rfl | cases hl

theorem outside_cons_some (hl : l.isParen = false) (h : outside 0 a = some o) :
    outside 0 (l :: a) = some (l :: o) := by
  rw [outside_cons hl, h]
  rfl

theorem outside_append_some {o' : List Lexeme} (h : outside 0 a = some o)
    (h' : outside 0 b = some o') : outside 0 (a ++ b) = some (o ++ o') := by
  rw [outside_append h, h']
  rfl

/-- What follows a balanced beginning is balanced on its own. -/
theorem outside_of_append (h : outside 0 a = some o) {o' : List Lexeme}
    (h' : outside 0 (a ++ b) = some o') : ∃ u, outside 0 b = some u ∧ o' = o ++ u := by
  rw [outside_append h] at h'
  obtain ⟨u, hu, rfl⟩ := Option.map_eq_some_iff.mp h'
  exact ⟨u, hu, rfl⟩

theorem not_outside_closeParen (h : outside 0 a = some o) {o' : List Lexeme} :
    outside 0 (a ++ .closeParen :: b) ≠ some o' := by
  rw [outside_append h]
  simp [outside]

/-- A lexeme after a balanced beginning is outside of all parentheses, and what
comes after it is balanced. -/
theorem outside_of_append_cons {o' : List Lexeme} (h : outside 0 a = some o)
    (h' : outside 0 (a ++ l :: b) = some o') (hl : l.isParen = false) :
    l ∈ o' ∧ ∃ u, outside 0 b = some u := by
  obtain ⟨w, hw, rfl⟩ := outside_of_append h h'
  rw [outside_cons hl] at hw
  obtain ⟨u, hu, rfl⟩ := Option.map_eq_some_iff.mp hw
  exact ⟨by simp, u, hu⟩

/-- What closes a parenthesis that is open has too many closing ones on its own. -/
theorem outside_eq_none (h : outside (depth + 1) a = some o) : outside depth (a ++ b) = none := by
  generalize hd : depth + 1 = d at h
  fun_induction outside d a generalizing depth o with
  | case1 | case4 | case6 => cases hd
  | case2 => cases h
  | case3 d ls ih =>
    rw [List.cons_append, outside]
    exact ih (by omega) h
  | case5 d ls ih =>
    obtain rfl : depth = d := by omega
    cases depth with
    | zero => rfl
    | succ depth => exact ih rfl h
  | case7 d l ls ho hc ih =>
    obtain rfl : depth = d := by omega
    cases depth with
    | zero =>
      have hl : l.isParen = false := by
        cases l <;> first | rfl | exact absurd rfl ho | exact absurd rfl hc
      rw [List.cons_append, outside_cons hl, ih rfl h]
      rfl
    | succ depth => rw [List.cons_append, outside, ih rfl h] <;> assumption

/-- Two ways to take a list apart at an element are one, or one of the elements
stands in what is before the other one. -/
theorem append_cons_cases {l' : Lexeme} {a' b' : List Lexeme} (h : a ++ l :: b = a' ++ l' :: b') :
    (a = a' ∧ l = l' ∧ b = b') ∨ (∃ c, a' = a ++ l :: c ∧ b = c ++ l' :: b') ∨
      ∃ c, a = a' ++ l' :: c ∧ b' = c ++ l :: b := by
  rcases List.append_eq_append_iff.mp h with ⟨c, rfl, hc⟩ | ⟨c, rfl, hc⟩
  · cases c with
    | nil =>
      have := List.cons.inj hc
      exact .inl ⟨(List.append_nil a).symm, this.1, this.2⟩
    | cons l c =>
      have := List.cons.inj hc
      exact .inr (.inl ⟨c, by rw [this.1], this.2⟩)
  · cases c with
    | nil =>
      have := List.cons.inj hc
      exact .inl ⟨List.append_nil a', this.1.symm, this.2.symm⟩
    | cons l c =>
      have := List.cons.inj hc
      exact .inr (.inr ⟨c, by rw [this.1], this.2⟩)

variable {a' b' o' : List Lexeme} {l' : Lexeme}

/-- Of two balanced beginnings before a closing parenthesis neither is longer. -/
theorem outside_unique (h : outside 0 a = some o) (h' : outside 0 a' = some o')
    (heq : a ++ .closeParen :: b = a' ++ .closeParen :: b') : a = a' ∧ b = b' := by
  rcases append_cons_cases heq with ⟨ha, -, hb⟩ | ⟨c, rfl, -⟩ | ⟨c, rfl, -⟩
  · exact ⟨ha, hb⟩
  · exact absurd h' (not_outside_closeParen h)
  · exact absurd h (not_outside_closeParen h')

/-- Of two balanced ends after an opening parenthesis neither is longer. -/
theorem outside_unique_right {u u' : List Lexeme} (ha : outside 0 a = some o)
    (hb : outside 0 b = some u) (ha' : outside 0 a' = some o') (hb' : outside 0 b' = some u')
    (heq : a ++ .openParen :: b = a' ++ .openParen :: b') : a = a' ∧ b = b' := by
  have shorter {a b c u o o' : List Lexeme} (ha : outside 0 a = some o)
      (ha' : outside 0 (a ++ .openParen :: c) = some o') : outside 0 (c ++ b) ≠ some u := by
    obtain ⟨w, hw, -⟩ := outside_of_append ha ha'
    rw [outside_eq_none (by simpa [outside] using hw)]
    simp
  rcases append_cons_cases heq with ⟨ha, -, hb⟩ | ⟨c, rfl, rfl⟩ | ⟨c, rfl, rfl⟩
  · exact ⟨ha, hb⟩
  · exact absurd hb (shorter ha ha')
  · exact absurd hb' (shorter ha' ha)

/-- A lexeme that is not a parenthesis is outside of what it is in at one place
only, if it is not outside of what is before and after it. -/
theorem outside_unique_of_not_mem {u : List Lexeme} (heq : a ++ l :: b = a' ++ l' :: b')
    (ha : outside 0 a = some o) (hb : outside 0 b = some u) (ha' : outside 0 a' = some o')
    (hl : l.isParen = false) (hl' : l'.isParen = false) (hn : l' ∉ o) (hn' : l' ∉ u) :
    a = a' ∧ l = l' ∧ b = b' := by
  rcases append_cons_cases heq with h | ⟨c, rfl, rfl⟩ | ⟨c, rfl, rfl⟩
  · exact h
  · obtain ⟨-, w, hw⟩ := outside_of_append_cons ha ha' hl
    exact absurd (outside_of_append_cons hw hb hl').1 hn'
  · exact absurd (outside_of_append_cons ha' ha hl').1 hn

end PanelCalc
