import PanelCalc.Proofs.Text.Words

/-! # The next lexeme

Scanning skips blanks and comments and then reads from one character on, which
settles what kind of lexeme it is that begins there. -/
namespace PanelCalc.Lexeme

open Text (Cursor)

variable {classify : String → Lexeme} {cursor next : Cursor} {located : Located} {column : Nat}
  {c : Char} {chars rest : List Char}

/-! ## Reading -/

/-- The ways in which reading from a character on may go. -/
inductive Reading (classify : String → Lexeme) (column : Nat) (c : Char) (rest : List Char) :
    Except CompileError (Lexeme × Cursor) → Prop
  | openParen : c = '(' → Reading classify column c rest (.ok (.openParen, ⟨column + 1, rest⟩))
  | closeParen : c = ')' → Reading classify column c rest (.ok (.closeParen, ⟨column + 1, rest⟩))
  | comma : c = ',' → Reading classify column c rest (.ok (.comma, ⟨column + 1, rest⟩))
  | symbol {symbol} : c ∉ ['(', ')', ','] → symbolAt? (c :: rest) = some symbol →
      Reading classify column c rest
        (.ok (.operator symbol.name, .advance ⟨column, c :: rest⟩ symbol.written.length))
  | number {answer} : (c.isDigit || c == '.') = true → readNumber column c rest = answer →
      Reading classify column c rest answer
  | text {answer} : c = Text.Quoted.mark → readText column rest = answer →
      Reading classify column c rest answer
  | word {answer} : Text.opensWord c = true → readWord classify column c rest = answer →
      Reading classify column c rest answer
  | unknown : Reading classify column c rest (.error ⟨column, .lexical (.unknownCharacter c)⟩)

theorem read_cases {answer : Except CompileError (Lexeme × Cursor)}
    (h : read classify column c rest = answer) : Reading classify column c rest answer := by
  subst h
  unfold read
  split
  · exact .openParen ‹_›
  split
  · exact .closeParen ‹_›
  split
  · exact .comma ‹_›
  split
  · exact .symbol (by simp [*]) ‹_›
  split
  · exact .number ‹_› rfl
  split
  · exact .text ‹_› rfl
  split
  · exact .word ‹_› rfl
  · exact .unknown

theorem read_symbol {symbol : OperatorSymbol} (hc : c ∉ ['(', ')', ','])
    (h : symbolAt? (c :: rest) = some symbol) : read classify column c rest =
      .ok (.operator symbol.name, .advance ⟨column, c :: rest⟩ symbol.written.length) := by
  simp only [List.mem_cons, List.not_mem_nil, or_false, not_or] at hc
  rw [read, if_neg hc.1, if_neg hc.2.1, if_neg hc.2.2, h]

theorem readNumber_error {e : CompileError} (h : readNumber column c rest = .error e) :
    e = ⟨column, .lexical .malformedNumber⟩ := by
  simp only [readNumber] at h
  split at h
  · cases h
  · exact (Except.error.inj h).symm

theorem readWord_error {e : CompileError} (h : readWord classify column c rest = .error e) :
    e = ⟨column, .lexical .unterminatedName⟩ := by
  simp only [readWord] at h
  split at h
  · exact (Except.error.inj h).symm
  · cases h

theorem readText_error {e : CompileError} (h : readText column rest = .error e) :
    e = ⟨column, .lexical .unterminatedString⟩ ∨ ∃ place sequence,
      Text.Quoted.decode (column + 1) rest = .error (.illegalEscape place sequence) ∧
        e = ⟨place, .lexical (.illegalEscape sequence)⟩ := by
  unfold readText at h
  split at h
  · cases h
  · exact .inl (Except.error.inj h).symm
  · rename_i place sequence hd
    exact .inr ⟨place, sequence, hd, (Except.error.inj h).symm⟩

/-- An error shows where the lexeme begins, or in an escape sequence. -/
theorem read_error {e : CompileError} (h : read classify column c rest = .error e) :
    (∃ fault, e = ⟨column, .lexical fault⟩ ∧ ∀ sequence, fault ≠ .illegalEscape sequence) ∨
      ∃ place sequence,
        Text.Quoted.decode (column + 1) rest = .error (.illegalEscape place sequence) ∧
          e = ⟨place, .lexical (.illegalEscape sequence)⟩ := by
  cases read_cases h with
  | number _ h => exact .inl ⟨_, readNumber_error h, nofun⟩
  | text _ h => exact (readText_error h).imp_left fun he => ⟨.unterminatedString, he, nofun⟩
  | word _ h => exact .inl ⟨_, readWord_error h, nofun⟩
  | unknown => exact .inl ⟨_, rfl, nofun⟩

/-! ## Scanning -/

/-- The ways in which scanning from a place on may go. -/
inductive Scanning (classify : String → Lexeme) (cursor : Cursor) :
    Except CompileError (Option (Located × Cursor)) → Prop
  | unclosed {e} : skipTrivia cursor.column cursor.rest = .error e →
      Scanning classify cursor (.error e)
  | finished {column : Nat} : skipTrivia cursor.column cursor.rest = .ok ⟨column, []⟩ →
      Scanning classify cursor (.ok none)
  | misread {column : Nat} {c : Char} {rest : List Char} {e} :
      skipTrivia cursor.column cursor.rest = .ok ⟨column, c :: rest⟩ →
      read classify column c rest = .error e → Scanning classify cursor (.error e)
  | found {column : Nat} {c : Char} {rest : List Char} {lexeme : Lexeme} {next : Cursor} :
      skipTrivia cursor.column cursor.rest = .ok ⟨column, c :: rest⟩ →
      read classify column c rest = .ok (lexeme, next) →
      Scanning classify cursor (.ok (some (⟨lexeme, column⟩, next)))

theorem next?_cases {answer : Except CompileError (Option (Located × Cursor))}
    (h : next? classify cursor = answer) : Scanning classify cursor answer := by
  subst h
  unfold next?
  cases hs : skipTrivia cursor.column cursor.rest with
  | error e => exact .unclosed hs
  | ok place =>
    obtain ⟨column, chars⟩ := place
    cases chars with
    | nil => exact .finished hs
    | cons c rest =>
      simp only [bind, Except.bind]
      cases hr : read classify column c rest with
      | error e => exact .misread hs hr
      | ok answer => exact .found hs hr

theorem next?_some (h : next? classify cursor = .ok (some (located, next))) :
    ∃ c rest, skipTrivia cursor.column cursor.rest = .ok ⟨located.column, c :: rest⟩ ∧
      read classify located.column c rest = .ok (located.lexeme, next) := by
  cases next?_cases h with
  | found hs hr => exact ⟨_, _, hs, hr⟩

/-- Scanning fails in a comment that is not closed, or in the lexeme that begins. -/
theorem next?_error {e : CompileError} (h : next? classify cursor = .error e) :
    skipTrivia cursor.column cursor.rest = .error e ∨ ∃ column c rest,
      skipTrivia cursor.column cursor.rest = .ok ⟨column, c :: rest⟩ ∧
        read classify column c rest = .error e := by
  cases next?_cases h with
  | unclosed hs => exact .inl hs
  | misread hs hr => exact .inr ⟨_, _, _, hs, hr⟩

/-- Scanning finds nothing where everything is skipped. -/
theorem next?_none (h : next? classify cursor = .ok none) :
    ∃ column, skipTrivia cursor.column cursor.rest = .ok ⟨column, []⟩ := by
  cases next?_cases h with
  | finished hs => exact ⟨_, hs⟩

/-! ## Skipping -/

theorem closeComment?_cons (h : c = '*' → rest.head? ≠ some '/') :
    closeComment? column (c :: rest) = closeComment? (column + 1) rest := by
  rw [closeComment?]
  rintro body rfl rfl
  exact h rfl rfl

theorem skipTrivia_nil : skipTrivia column [] = .ok ⟨column, []⟩ := by
  rw [skipTrivia.eq_def]

theorem skipTrivia_comment (h : closeComment? (column + 2) rest = some next) :
    skipTrivia column ('/' :: '*' :: rest) = skipTrivia next.column next.rest := by
  rw [skipTrivia]
  split <;> simp_all

theorem skipTrivia_unclosed (h : closeComment? (column + 2) rest = none) :
    skipTrivia column ('/' :: '*' :: rest) = .error ⟨column, .lexical .unterminatedComment⟩ := by
  rw [skipTrivia]
  split <;> simp_all

theorem skipTrivia_blank (hb : Text.isBlank c = true) :
    skipTrivia column (c :: rest) = skipTrivia (column + 1) rest := by
  rw [skipTrivia.eq_def]
  split
  · rename_i h
    cases h
    exact absurd hb (by decide)
  · rename_i h
    cases h
    rw [if_pos hb]
  · rename_i h
    cases h

/-- A character that is neither blank nor the beginning of a comment is not skipped. -/
theorem skipTrivia_cons (hb : Text.isBlank c = false) (hc : c ≠ '/' ∨ rest.head? ≠ some '*') :
    skipTrivia column (c :: rest) = .ok ⟨column, c :: rest⟩ := by
  rw [skipTrivia.eq_def]
  split
  · rename_i body h
    cases h
    simp at hc
  · rename_i c' rest' _ h
    cases h
    rw [if_neg (by simp [hb])]
  · rename_i h
    cases h

/-- Characters begin no comment if it is not both of its characters that they begin with. -/
theorem no_comment (h : ∀ body, c = '/' → rest = '*' :: body → False) :
    c ≠ '/' ∨ rest.head? ≠ some '*' := by
  by_cases hc : c = '/'
  · refine .inr fun hr => ?_
    obtain ⟨body, hr⟩ := List.head?_eq_some_iff.mp hr
    exact h body hc hr
  · exact .inl hc

/-- Where skipping comes to a character, a lexeme begins. -/
theorem begins_of_skipTrivia {column' : Nat}
    (h : skipTrivia column chars = .ok ⟨column', c :: rest⟩) :
    Text.isBlank c = false ∧ (c ≠ '/' ∨ rest.head? ≠ some '*') := by
  fun_induction skipTrivia column chars with
  | case1 _ _ _ _ ih | case3 _ _ _ _ _ ih => exact ih h
  | case4 column first others hcomment hb =>
    cases h
    exact ⟨by simpa using hb, no_comment hcomment⟩
  | case2 | case5 => cases h

theorem next?_of_read {lexeme : Lexeme} (hb : Text.isBlank c = false)
    (hc : c ≠ '/' ∨ rest.head? ≠ some '*') (h : read classify column c rest = .ok (lexeme, next)) :
    next? classify ⟨column, c :: rest⟩ = .ok (some (⟨lexeme, column⟩, next)) := by
  simp only [next?, skipTrivia_cons hb hc, bind, Except.bind, h]
  rfl

theorem next?_ne_none (hb : Text.isBlank c = false) (hc : c ≠ '/' ∨ rest.head? ≠ some '*') :
    next? classify ⟨column, c :: rest⟩ ≠ .ok none := by
  simp only [next?, skipTrivia_cons hb hc, bind, Except.bind]
  cases read classify column c rest with
  | error e => simp
  | ok answer => simp [pure, Except.pure]

end PanelCalc.Lexeme
