import PanelCalc.Proofs.Lexeme.Scanning

/-! # Words with other meanings

What a word means has no part in where a lexeme begins and ends. So where two
meanings agree on all words that are found in a text, the text has the same
lexemes in both, or the same error. -/
namespace PanelCalc.Lexeme

open Text (Cursor)

/-- The lexemes that are found from a place on, up to the end or the first error. -/
inductive Found (classify : String → Lexeme) : Cursor → Lexeme → Prop
  | here {cursor located next} : next? classify cursor = .ok (some (located, next)) →
      Found classify cursor located.lexeme
  | later {cursor located next l} : next? classify cursor = .ok (some (located, next)) →
      Found classify next l → Found classify cursor l

variable {classify classify' : String → Lexeme} {P : Lexeme → Prop} {column : Nat} {c : Char}
  {rest : List Char} {cursor : Cursor}

/-- The lexemes of a text that has no error are those that are found in it. -/
theorem Lexes.found_iff {ls : List Lexeme} {l : Lexeme} (h : Lexes classify cursor ls) :
    Found classify cursor l ↔ l ∈ ls := by
  induction h with
  | done hn =>
    refine ⟨fun hl => ?_, fun hl => absurd hl List.not_mem_nil⟩
    cases hl with
    | here h | later h =>
      rw [hn] at h
      cases h
  | next hn _ ih =>
    rw [List.mem_cons, ← ih]
    constructor
    · intro hl
      cases hl with
      | here h =>
        rw [hn] at h
        cases h
        exact .inl rfl
      | later h hl =>
        rw [hn] at h
        cases h
        exact .inr hl
    · intro hl
      rcases hl with rfl | hl
      · exact .here hn
      · exact .later hn hl

theorem readWord_congr (agree : ∀ w, P (classify w) → classify' w = classify w)
    (h : ∀ l next, readWord classify column c rest = .ok (l, next) → P l) :
    readWord classify' column c rest = readWord classify column c rest := by
  simp only [readWord] at h ⊢
  split
  · rfl
  · rename_i hq
    rw [agree _ (h _ _ (if_neg hq))]

theorem read_congr (agree : ∀ w, P (classify w) → classify' w = classify w)
    (h : ∀ l next, read classify column c rest = .ok (l, next) → P l) :
    read classify' column c rest = read classify column c rest := by
  unfold read at h ⊢
  by_cases hopen : c = '('
  · rw [if_pos hopen, if_pos hopen]
  by_cases hclose : c = ')'
  · rw [if_neg hopen, if_neg hopen, if_pos hclose, if_pos hclose]
  by_cases hcomma : c = ','
  · rw [if_neg hopen, if_neg hopen, if_neg hclose, if_neg hclose, if_pos hcomma, if_pos hcomma]
  simp only [hopen, hclose, hcomma, if_false] at h ⊢
  cases hs : symbolAt? (c :: rest) with
  | some symbol => rfl
  | none =>
    simp only [hs] at h ⊢
    split
    · rfl
    split
    · rfl
    split
    · rename_i hnumber htext hword
      simp only [if_neg hnumber, if_neg htext, if_pos hword] at h
      exact readWord_congr agree h
    · rfl

theorem next?_congr (agree : ∀ w, P (classify w) → classify' w = classify w)
    (h : ∀ located next, next? classify cursor = .ok (some (located, next)) → P located.lexeme) :
    next? classify' cursor = next? classify cursor := by
  unfold next? at h ⊢
  cases hskip : skipTrivia cursor.column cursor.rest with
  | error e => rfl
  | ok place =>
    rw [hskip] at h
    obtain ⟨column, chars⟩ := place
    cases chars with
    | nil => rfl
    | cons c rest =>
      have same : read classify' column c rest = read classify column c rest := by
        refine read_congr agree fun l next hr => h ⟨l, column⟩ next ?_
        simp only [bind, Except.bind, hr]
        rfl
      simp only [bind, Except.bind, same]

/-- **Meanings that agree on what is found** give the same lexemes, and whatever
takes these the same results and errors. -/
theorem fold_congr {σ : Type} {take take' : σ → Located → Except CompileError σ} {state : σ}
    (agree : ∀ w, P (classify w) → classify' w = classify w)
    (same : ∀ state located, P located.lexeme → take' state located = take state located)
    (h : ∀ l, Found classify cursor l → P l) :
    fold classify' take' state cursor = fold classify take state cursor := by
  have found {cursor : Cursor} (h : ∀ l, Found classify cursor l → P l) :
      next? classify' cursor = next? classify cursor :=
    next?_congr agree fun located next hn => h _ (.here hn)
  fun_induction fold classify take state cursor with
  | case1 state cursor e hn => exact fold_of_error ((found h).trans hn)
  | case2 state cursor hn => exact fold_of_none ((found h).trans hn)
  | case3 state cursor located next hn e ht =>
    rw [fold_of_some ((found h).trans hn), same _ _ (h _ (.here hn)), ht]
    rfl
  | case4 state cursor located next hn state' ht ih =>
    rw [fold_of_some ((found h).trans hn), same _ _ (h _ (.here hn)), ht]
    exact ih fun l hl => h l (.later hn hl)

end PanelCalc.Lexeme
