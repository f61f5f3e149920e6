import Mathlib.Tactic.SplitIfs
import PanelCalc.Proofs.Lexeme.Scanning

/-! # Columns

Scanning looks at the characters from a place on and only counts those before
it. So the same characters further on in a text are scanned alike, at columns
that are larger by the same number, and every place that scanning comes to
belongs to the same text. -/
namespace PanelCalc

open Text (Cursor)

/-- The same characters further on in a text. -/
def Text.Cursor.shift (k : Nat) (cursor : Cursor) : Cursor := ⟨cursor.column + k, cursor.rest⟩

/-- The same fault further on in a text. -/
def Text.Quoted.Fault.shift (k : Nat) : Fault → Fault
  | unterminated => unterminated
  | illegalEscape column sequence => illegalEscape (column + k) sequence

/-- The same lexeme further on in a text. -/
def Located.shift (k : Nat) (located : Located) : Located := ⟨located.lexeme, located.column + k⟩

/-- The same error further on in a text. -/
def CompileError.shift (k : Nat) (e : CompileError) : CompileError := ⟨e.column + k, e.fault⟩

variable {k column : Nat} {c : Char} {chars rest : List Char}

/-! ## Further on in a text -/

namespace Text.Quoted

theorem prepend_shift (answer : Except Fault (List Char × Cursor)) :
    prepend c ((answer.map (Prod.map id (·.shift k))).mapError (·.shift k)) =
      ((prepend c answer).map (Prod.map id (·.shift k))).mapError (·.shift k) := by
  cases answer <;> rfl

theorem length_lt_four (h : ∀ p q r s others, rest = p :: q :: r :: s :: others → False) :
    rest.length < 4 := by
  rcases rest with _ | ⟨p, _ | ⟨q, _ | ⟨r, _ | ⟨s, others⟩⟩⟩⟩
  · simp
  · simp
  · simp
  · simp
  · exact (h p q r s others rfl).elim

theorem decode_shift : decode (column + k) chars =
    ((decode column chars).map (Prod.map id (·.shift k))).mapError (·.shift k) := by
  fun_induction decode column chars with
  | case1 => rfl
  | case2 column rest =>
    rw [decode_mark, Nat.add_right_comm]
    rfl
  | case3 column => rfl
  | case4 column p q r s rest meant h _ ih =>
    rw [decode_hex h, Nat.add_right_comm, ih, prepend_shift]
  | case5 column p q r s rest h =>
    rw [decode_illegal_hex h]
    rfl
  | case6 column letter rest _ meant h _ ih =>
    rw [decode_escape h, Nat.add_right_comm, ih, prepend_shift]
  | case7 column letter rest hu h =>
    rw [decode_illegal h fun hl => length_lt_four fun p q r s others => hu p q r s others hl]
    rfl
  | case8 column letter rest hm hb ih =>
    rw [decode_cons_of_ne hm hb, Nat.add_right_comm, ih, prepend_shift]

end Text.Quoted

namespace Lexeme

variable {classify : String → Lexeme} {cursor : Cursor}

theorem closeComment?_shift :
    closeComment? (column + k) chars = (closeComment? column chars).map (·.shift k) := by
  fun_induction closeComment? column chars with
  | case1 column rest => simp [closeComment?, Cursor.shift, Nat.add_right_comm]
  | case2 column c rest h ih =>
    rw [closeComment?, Nat.add_right_comm, ih]
    exact h
  | case3 column => rfl

theorem skipTrivia_shift : skipTrivia (column + k) chars =
    ((skipTrivia column chars).map (·.shift k)).mapError (·.shift k) := by
  fun_induction skipTrivia column chars with
  | case1 column body next closed ih =>
    have closed' : closeComment? (column + k + 2) body = some (next.shift k) := by
      rw [Nat.add_right_comm, closeComment?_shift, closed]
      rfl
    rw [skipTrivia_comment closed']
    exact ih
  | case2 column body unclosed =>
    rw [skipTrivia_unclosed]
    · rfl
    · rw [Nat.add_right_comm, closeComment?_shift, unclosed]
      rfl
  | case3 column c rest _ hb ih => rw [skipTrivia_blank hb, Nat.add_right_comm, ih]
  | case4 column c rest hcomment hb =>
    rw [skipTrivia_cons (by simpa using hb) (no_comment hcomment)]
    rfl
  | case5 column =>
    rw [skipTrivia_nil]
    rfl

theorem readNumber_shift : readNumber (column + k) c rest =
    ((readNumber column c rest).map (Prod.map id (·.shift k))).mapError (·.shift k) := by
  simp only [readNumber]
  split
  · simp [Except.map, Except.mapError, Cursor.shift]
    omega
  · rfl

theorem readWord_shift : readWord classify (column + k) c rest =
    ((readWord classify column c rest).map (Prod.map id (·.shift k))).mapError (·.shift k) := by
  simp only [readWord]
  split
  · rfl
  · simp [Except.map, Except.mapError, Cursor.shift]
    omega

theorem readText_shift : readText (column + k) rest =
    ((readText column rest).map (Prod.map id (·.shift k))).mapError (·.shift k) := by
  unfold readText
  rw [Nat.add_right_comm, Text.Quoted.decode_shift]
  cases Text.Quoted.decode (column + 1) rest with
  | ok answer => rfl
  | error fault => cases fault <;> rfl

theorem read_shift : read classify (column + k) c rest =
    ((read classify column c rest).map (Prod.map id (·.shift k))).mapError (·.shift k) := by
  have next (n : Nat) (chars : List Char) :
      (⟨column + k + n, chars⟩ : Cursor) = (⟨column + n, chars⟩ : Cursor).shift k := by
    rw [Cursor.shift, Nat.add_right_comm]
  unfold read
  cases symbolAt? (c :: rest) with
  | some symbol =>
    split_ifs
    all_goals
      simp only [Cursor.advance, next]
      rfl
  | none =>
    split_ifs
    · rw [next]; rfl
    · rw [next]; rfl
    · rw [next]; rfl
    · exact readNumber_shift
    · exact readText_shift
    · exact readWord_shift
    · rfl

theorem next?_shift : next? classify (cursor.shift k) = ((next? classify cursor).map
    (Option.map (Prod.map (·.shift k) (·.shift k)))).mapError (·.shift k) := by
  simp only [next?, Cursor.shift, skipTrivia_shift]
  cases skipTrivia cursor.column cursor.rest with
  | error e => rfl
  | ok place =>
    obtain ⟨column, chars⟩ := place
    cases chars with
    | nil => rfl
    | cons c rest =>
      simp only [Except.map, Except.mapError, bind, Except.bind, Cursor.shift, read_shift]
      cases read classify column c rest with
      | error e => rfl
      | ok answer => rfl

/-- **Further on in a text** the same characters are taken alike. -/
theorem fold_shift {σ : Type} {take : σ → Located → Except CompileError σ} {state : σ}
    (ht : ∀ state located,
      take state (located.shift k) = (take state located).mapError (·.shift k)) :
    fold classify take state (cursor.shift k) =
      (fold classify take state cursor).mapError (·.shift k) := by
  fun_induction fold classify take state cursor with
  | case1 state cursor e hn => exact fold_of_error (by rw [next?_shift, hn]; rfl)
  | case2 state cursor hn => exact fold_of_none (by rw [next?_shift, hn]; rfl)
  | case3 state cursor located next hn e he =>
    rw [fold_of_some (by rw [next?_shift, hn]; rfl), ht, he]
    rfl
  | case4 state cursor located next hn state' hs ih =>
    rw [fold_of_some (by rw [next?_shift, hn]; rfl), ht, hs]
    exact ih

end Lexeme

/-! ## Places of one text -/

/-- The column up to which an error shows, with the characters that it quotes. -/
def CompileError.reach (e : CompileError) : Nat :=
  match e.fault with
  | .lexical (.illegalEscape sequence) => e.column + 1 + sequence.length
  | _ => e.column

namespace Text.Quoted

/-- The column up to which a fault shows, if it shows anywhere. -/
def Fault.reach : Fault → Nat
  | unterminated => 0
  | illegalEscape column sequence => column + 1 + sequence.length

theorem decode_endColumn {meant : List Char} {next : Cursor}
    (h : decode column chars = .ok (meant, next)) : next.endColumn = column + chars.length := by
  fun_induction decode column chars generalizing meant next with
  | case2 column rest =>
    cases h
    simp only [Cursor.endColumn, List.length_cons]
    omega
  | case4 | case6 | case8 =>
    rename_i ih
    obtain ⟨others, h, -⟩ := prepend_eq_ok.mp h
    rw [ih h]
    simp only [List.length_cons]
    omega
  | _ => cases h

theorem prepend_eq_error {answer : Except Fault (List Char × Cursor)} {fault : Fault} :
    prepend c answer = .error fault ↔ answer = .error fault := by
  cases answer <;> simp [prepend, Except.map]

theorem decode_reach {fault : Fault} (h : decode column chars = .error fault) :
    fault.reach ≤ column + chars.length := by
  fun_induction decode column chars with
  | case1 | case3 =>
    cases h
    exact Nat.zero_le _
  | case2 => cases h
  | case4 | case6 | case8 =>
    rename_i ih
    have := ih (prepend_eq_error.mp h)
    simp only [List.length_cons]
    omega
  | case5 column p q r s rest =>
    cases h
    simp only [Fault.reach, List.length_cons, List.length_nil]
    omega
  | case7 column letter rest =>
    cases h
    have : (if letter = 'u' then rest else []).length ≤ rest.length := by
      split <;> simp
    simp only [Fault.reach, List.length_cons]
    omega

end Text.Quoted

namespace Lexeme

variable {classify : String → Lexeme} {cursor next : Cursor} {l : Lexeme} {e : CompileError}

theorem closeComment?_endColumn (h : closeComment? column chars = some next) :
    next.endColumn = column + chars.length := by
  fun_induction closeComment? column chars with
  | case1 column rest =>
    cases h
    simp only [Cursor.endColumn, List.length_cons]
    omega
  | case2 column c rest _ ih =>
    rw [ih h, List.length_cons]
    omega
  | case3 => cases h

theorem skipTrivia_endColumn (h : skipTrivia column chars = .ok next) :
    next.endColumn = column + chars.length := by
  fun_induction skipTrivia column chars with
  | case1 column body place closed ih =>
    have hbody := closeComment?_endColumn closed
    have hnext := ih h
    simp only [Cursor.endColumn, List.length_cons] at hbody hnext ⊢
    omega
  | case2 => cases h
  | case3 column c rest _ _ ih =>
    rw [ih h, List.length_cons]
    omega
  | case4 | case5 =>
    cases h
    rfl

theorem skipTrivia_reach (h : skipTrivia column chars = .error e) :
    e.reach ≤ column + chars.length := by
  fun_induction skipTrivia column chars with
  | case1 column body place closed ih =>
    have hbody := closeComment?_endColumn closed
    have hreach := ih h
    simp only [Cursor.endColumn, List.length_cons] at hbody ⊢
    omega
  | case2 =>
    cases h
    exact Nat.le_add_right ..
  | case3 column c rest _ _ ih =>
    have := ih h
    simp only [List.length_cons]
    omega
  | case4 | case5 => cases h

theorem spanNumeral_append_span (seenPoint : Bool) (chars : List Char) :
    (spanNumeral seenPoint chars).1 ++ (spanNumeral seenPoint chars).2 = chars := by
  fun_induction spanNumeral seenPoint chars <;> simp_all

theorem spanName_append_span (quoted : Bool) (chars : List Char) :
    (spanName quoted chars).1 ++ (spanName quoted chars).2.2 = chars := by
  fun_induction spanName quoted chars <;> simp_all

/-- A symbol is written where it is found. -/
theorem symbolAt?_length_le {symbol : OperatorSymbol} (h : symbolAt? chars = some symbol) :
    symbol.written.length ≤ chars.length := by
  have hp := List.find?_some h
  have hl := (List.isPrefixOf_iff_prefix.mp hp).length_le
  rwa [String.length_toList] at hl

theorem readNumber_endColumn (h : readNumber column c rest = .ok (l, next)) :
    next.endColumn = column + 1 + rest.length := by
  have hlength := congrArg List.length (spanNumeral_append_span (c == '.') rest)
  rcases hspan : spanNumeral (c == '.') rest with ⟨taken, after⟩
  simp only [readNumber, hspan] at h hlength
  split at h
  · cases h
    simp only [Cursor.endColumn, List.length_append] at hlength ⊢
    omega
  · cases h

theorem readWord_endColumn (h : readWord classify column c rest = .ok (l, next)) :
    next.endColumn = column + 1 + rest.length := by
  have hlength := congrArg List.length (spanName_append_span (c == '"') rest)
  rcases hspan : spanName (c == '"') rest with ⟨taken, quoted, after⟩
  simp only [readWord, hspan] at h hlength
  split at h
  · cases h
  · cases h
    simp only [Cursor.endColumn, List.length_append] at hlength ⊢
    omega

theorem readText_endColumn (h : readText column rest = .ok (l, next)) :
    next.endColumn = column + 1 + rest.length := by
  unfold readText at h
  split at h
  · rename_i hd
    cases h
    exact Text.Quoted.decode_endColumn hd
  all_goals cases h

theorem read_endColumn (h : read classify column c rest = .ok (l, next)) :
    next.endColumn = column + 1 + rest.length := by
  cases read_cases h with
  | openParen | closeParen | comma => rfl
  | symbol _ found =>
    rw [Cursor.endColumn_advance _ _ (symbolAt?_length_le found)]
    simp only [Cursor.endColumn, List.length_cons]
    omega
  | number _ h => exact readNumber_endColumn h
  | text _ h => exact readText_endColumn h
  | word _ h => exact readWord_endColumn h

theorem read_reach (h : read classify column c rest = .error e) :
    e.reach ≤ column + 1 + rest.length := by
  rcases read_error h with ⟨fault, rfl, hf⟩ | ⟨place, sequence, hd, rfl⟩
  · cases fault with
    | illegalEscape sequence => exact absurd rfl (hf sequence)
    | _ => simp only [CompileError.reach]; omega
  · exact Text.Quoted.decode_reach hd

/-- Scanning stays in the text. -/
theorem next?_endColumn {located : Located}
    (h : next? classify cursor = .ok (some (located, next))) :
    next.endColumn = cursor.endColumn ∧ located.column < cursor.endColumn := by
  obtain ⟨c, rest, hs, hr⟩ := next?_some h
  have hskip := skipTrivia_endColumn hs
  have hread := read_endColumn hr
  simp only [Cursor.endColumn, List.length_cons] at hskip hread ⊢
  omega

theorem next?_reach (h : next? classify cursor = .error e) : e.reach ≤ cursor.endColumn := by
  rcases next?_error h with hs | ⟨column, c, rest, hs, hr⟩
  · exact skipTrivia_reach hs
  · have hskip := skipTrivia_endColumn hs
    have hread := read_reach hr
    simp only [Cursor.endColumn, List.length_cons] at hskip ⊢
    omega

theorem skipTrivia_error (h : skipTrivia column chars = .error e) :
    e.fault = .lexical .unterminatedComment ∧ e.column < column + chars.length := by
  fun_induction skipTrivia column chars with
  | case1 column body place closed ih =>
    have hbody := closeComment?_endColumn closed
    obtain ⟨hfault, hcolumn⟩ := ih h
    simp only [Cursor.endColumn, List.length_cons] at hbody ⊢
    exact ⟨hfault, by omega⟩
  | case2 =>
    cases h
    simp
  | case3 column c rest _ _ ih =>
    obtain ⟨hfault, hcolumn⟩ := ih h
    simp only [List.length_cons]
    exact ⟨hfault, by omega⟩
  | case4 | case5 => cases h

/-- **Errors of scanning show at a character** of the text. -/
theorem column_lt_of_next?_error (h : next? classify cursor = .error e) :
    e.column < cursor.endColumn := by
  rcases next?_error h with hs | ⟨column, c, rest, hs, hr⟩
  · exact (skipTrivia_error hs).2
  · have hskip := skipTrivia_endColumn hs
    have hreach := read_reach hr
    simp only [Cursor.endColumn, List.length_cons] at hskip ⊢
    rcases read_error hr with ⟨fault, rfl, -⟩ | ⟨place, sequence, -, rfl⟩
    · simp only
      omega
    · simp only [CompileError.reach] at hreach ⊢
      omega

theorem lexical_of_next?_error (h : next? classify cursor = .error e) :
    ∃ fault, e.fault = .lexical fault := by
  rcases next?_error h with hs | ⟨column, c, rest, hs, hr⟩
  · exact ⟨_, (skipTrivia_error hs).1⟩
  · rcases read_error hr with ⟨fault, rfl, -⟩ | ⟨place, sequence, -, rfl⟩
    · exact ⟨_, rfl⟩
    · exact ⟨_, rfl⟩

/-- **Errors show in the text**, if those of taking a lexeme do. -/
theorem fold_reach {σ : Type} {take : σ → Located → Except CompileError σ} {state : σ}
    (ht : ∀ state located e, take state located = .error e → e.reach ≤ located.column)
    (h : fold classify take state cursor = .error e) : e.reach ≤ cursor.endColumn := by
  fun_induction fold classify take state cursor with
  | case1 state cursor e' hn =>
    cases h
    exact next?_reach hn
  | case2 => cases h
  | case3 state cursor located next hn e' he =>
    cases h
    exact (ht _ _ _ he).trans (next?_endColumn hn).2.le
  | case4 state cursor located next hn state' _ ih => exact (next?_endColumn hn).1 ▸ ih h

end Lexeme

theorem Grammar.take_shift {g : Grammar} {b : Builder} (k : Nat) (located : Located) :
    g.take b (located.shift k) = (g.take b located).mapError (·.shift k) := by
  unfold take Located.shift
  cases b.accept g located.lexeme <;> rfl

end PanelCalc
