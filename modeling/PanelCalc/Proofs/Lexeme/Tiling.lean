import PanelCalc.Proofs.Lexeme.Lookahead

/-! # Lexemes tile the text

Scanning again and again from where the last lexeme has ended comes to an end,
since every lexeme takes up a character. What the lexemes take up lies one behind
the other in the text, and what they leave are blanks and comments. -/
namespace PanelCalc

open Text (Cursor)

/-- A lexeme with the column where it begins and the column behind its end. -/
structure Span extends Located where
  stop : Nat

/-- Whether the lexeme takes up the character at a column. -/
def Span.Covers (s : Span) (column : Nat) : Prop := s.column ≤ column ∧ column < s.stop

namespace Lexeme

/-- Scanning from a place finds lexemes one after the other and comes to another place. -/
inductive Yields (classify : String → Lexeme) : Cursor → List Span → Cursor → Prop
  | done {cursor} : Yields classify cursor [] cursor
  | next {cursor located after spans place} : next? classify cursor = .ok (some (located, after)) →
      Yields classify after spans place →
      Yields classify cursor (⟨located, after.column⟩ :: spans) place

variable {classify : String → Lexeme} {cursor place : Cursor} {spans : List Span}

/-! ## Scanning ends -/

/-- Lexemes are taken until the text ends, the next one cannot be scanned or it is refused. -/
theorem exists_fold {σ : Type} (classify : String → Lexeme)
    (take : σ → Located → Except CompileError σ) (state : σ) (cursor : Cursor) :
    ∃ spans place state', Yields classify cursor spans place ∧
      spans.foldlM (fun state s => take state s.toLocated) state = .ok state' ∧
      ((next? classify place = .ok none ∧ fold classify take state cursor = .ok state') ∨
        ∃ e, fold classify take state cursor = .error e ∧ (next? classify place = .error e ∨
          ∃ located next, next? classify place = .ok (some (located, next)) ∧
            take state' located = .error e)) := by
  fun_induction fold classify take state cursor with
  | case1 state cursor e hn => exact ⟨[], cursor, state, .done, rfl, .inr ⟨e, rfl, .inl hn⟩⟩
  | case2 state cursor hn => exact ⟨[], cursor, state, .done, rfl, .inl ⟨hn, rfl⟩⟩
  | case3 state cursor located next hn e ht =>
    exact ⟨[], cursor, state, .done, rfl, .inr ⟨e, rfl, .inr ⟨located, next, hn, ht⟩⟩⟩
  | case4 state cursor located next hn state' ht ih =>
    obtain ⟨spans, place, last, hy, hf, hend⟩ := ih
    refine ⟨_, place, last, .next hn hy, ?_, hend⟩
    rw [List.foldlM_cons, ht]
    exact hf

/-- Scanning comes to the end of the text or to an error. -/
theorem exists_yields (classify : String → Lexeme) (cursor : Cursor) :
    ∃ spans place, Yields classify cursor spans place ∧
      (next? classify place = .ok none ∨ ∃ e, next? classify place = .error e) := by
  obtain ⟨spans, place, -, hy, -, ⟨hnone, -⟩ | ⟨e, -, he | ⟨_, _, -, ht⟩⟩⟩ :=
    exists_fold classify (fun _ _ => .ok ()) () cursor
  · exact ⟨spans, place, hy, .inl hnone⟩
  · exact ⟨spans, place, hy, .inr ⟨e, he⟩⟩
  · cases ht

section Fold

variable {σ : Type} {take : σ → Located → Except CompileError σ} {state : σ}

/-- What takes the lexemes of a text takes those that have been found, and then the others. -/
theorem Yields.fold (h : Yields classify cursor spans place) :
    Lexeme.fold classify take state cursor = spans.foldlM (fun state s => take state s.toLocated)
      state >>= fun state => Lexeme.fold classify take state place := by
  induction h generalizing state with
  | done => rfl
  | @next _ located _ _ _ hn _ ih =>
    rw [fold_of_some hn, List.foldlM_cons]
    cases ht : take state located with
    | error e => rfl
    | ok state' => exact ih

theorem foldlM_toLocated (spans : List Span) (found : List Located) :
    spans.foldlM (fun found s => (.ok (s.toLocated :: found) : Except CompileError _)) found =
      .ok ((spans.map (·.toLocated)).reverse ++ found) := by
  induction spans generalizing found with
  | nil => rfl
  | cons s spans ih => simp [ih, bind, Except.bind]

/-- The lexemes of a text are those that scanning finds up to its end. -/
theorem Yields.ofText {text : String} (h : Yields classify (.start text) spans place)
    (hend : next? classify place = .ok none) :
    Lexeme.ofText classify text = .ok (spans.map (·.toLocated)) := by
  simp only [Lexeme.ofText, h.fold, foldlM_toLocated, bind, Except.bind, fold_of_none hend,
    Except.map]
  simp

theorem Yields.ofText_error {text : String} {e : CompileError}
    (h : Yields classify (.start text) spans place) (hend : next? classify place = .error e) :
    Lexeme.ofText classify text = .error e := by
  simp only [Lexeme.ofText, h.fold, foldlM_toLocated, bind, Except.bind, fold_of_error hend,
    Except.map]

/-- A formula is read from the lexemes that scanning finds up to the end of the text. -/
theorem Yields.read {g : Grammar} {text : String}
    (h : Yields g.classify (.start text) spans place) (hend : next? g.classify place = .ok none) :
    g.read text = spans.foldlM (fun b s => g.take b s.toLocated) .start >>= fun b =>
      b.finish.mapError fun fault => ⟨text.length, .structural fault⟩ := by
  simp only [Grammar.read, h.fold, fold_of_none hend, Cursor.endColumn_start, String.length_toList]
  cases spans.foldlM (fun b s => g.take b s.toLocated) .start <;> rfl

end Fold

/-- All places that scanning comes to lie on the way to the end of the text. -/
theorem Yields.prefix_of_end {spans' : List Span} {place' : Cursor}
    (h : Yields classify cursor spans' place') (h' : Yields classify cursor spans place)
    (hend : next? classify place = .ok none) : spans' <+: spans := by
  induction h generalizing spans with
  | done => exact List.nil_prefix
  | next hn _ ih =>
    cases h' with
    | done =>
      rw [hend] at hn
      cases hn
    | next hn' h' =>
      rw [hn] at hn'
      cases hn'
      exact (List.prefix_cons_inj _).mpr (ih h')

/-! ## Places in the text -/

/-- A lexeme lies behind the place where it is looked for, and in the text. -/
theorem next?_column {located : Located} {after : Cursor}
    (h : next? classify cursor = .ok (some (located, after))) :
    cursor.column ≤ located.column ∧ located.column < after.column ∧
      after.column ≤ cursor.endColumn := by
  obtain ⟨gap, spelled, -, -, hne, hbegin, hstop, -⟩ := exists_spelled h
  have hpos := List.length_pos_iff.mpr hne
  have hend := (next?_endColumn h).1
  simp only [Cursor.endColumn] at hend ⊢
  omega

namespace Yields

theorem endColumn (h : Yields classify cursor spans place) :
    place.endColumn = cursor.endColumn := by
  induction h with
  | done => rfl
  | next hn _ ih => exact ih.trans (next?_endColumn hn).1

theorem column_le (h : Yields classify cursor spans place) : cursor.column ≤ place.column := by
  induction h with
  | done => exact le_rfl
  | next hn _ ih =>
    have := next?_column hn
    omega

/-- Every lexeme takes up characters between the places. -/
theorem bounds (h : Yields classify cursor spans place) : ∀ s ∈ spans,
    cursor.column ≤ s.column ∧ s.column < s.stop ∧ s.stop ≤ place.column := by
  induction h with
  | done => simp
  | next hn hy ih =>
    have hcolumn := next?_column hn
    have hle := hy.column_le
    intro s hs
    rcases List.mem_cons.mp hs with rfl | hs
    · exact ⟨hcolumn.1, hcolumn.2.1, hle⟩
    · have := ih s hs
      omega

/-- Lexemes lie one behind the other. -/
theorem increasing (h : Yields classify cursor spans place) :
    spans.Pairwise (·.stop ≤ ·.column) := by
  induction h with
  | done => exact .nil
  | next _ hy ih => exact .cons (fun s hs => (hy.bounds s hs).1) ih

/-- Every lexeme ends behind the place where it was looked for. -/
theorem advances (h : Yields classify cursor spans place) :
    (cursor.column :: spans.map (·.stop)).IsChain (· < ·) := by
  induction h with
  | done => exact .singleton _
  | next hn _ ih =>
    have := next?_column hn
    exact .cons_cons (by simp only; omega) ih

end Yields

/-! ## Between the lexemes -/

/-- A comment takes up the characters from one column up to another: it is opened there, and closed
at the first place where it can be. -/
def CommentAt (chars : List Char) (start stop : Nat) : Prop :=
  ∃ before body after, chars = before ++ '/' :: '*' :: (body ++ closing ++ after) ∧
    ¬ closing <:+: body ∧ before.length = start ∧ start + 2 + body.length + 2 = stop

/-- The character at a column is blank, or it lies in a comment between two columns. -/
def Idle (chars : List Char) (least most column : Nat) : Prop :=
  (∃ c, chars[column]? = some c ∧ Text.isBlank c = true) ∨
    ∃ start stop, CommentAt chars start stop ∧ least ≤ start ∧ start ≤ column ∧ column < stop ∧
      stop ≤ most

variable {before first others rest gap : List Char} {column : Nat}

/-- What is skipped behind other characters is skipped with them. -/
theorem Idle.behind (h : Idle (before ++ first ++ others ++ rest) (before ++ first).length
      ((before ++ first).length + others.length) column) :
    Idle (before ++ (first ++ others) ++ rest) before.length
      (before.length + (first ++ others).length) column := by
  simp only [List.append_assoc, List.length_append] at h ⊢
  refine h.imp_right fun ⟨start, stop, hc, hstart, hcolumn, hlt, hstop⟩ => ?_
  exact ⟨start, stop, hc, by omega, hcolumn, hlt, by omega⟩

/-- What is skipped are blanks, and comments as a whole. -/
theorem Trivia.idle (h : Trivia gap) (before rest : List Char) (hl : before.length ≤ column)
    (hg : column < before.length + gap.length) :
    Idle (before ++ gap ++ rest) before.length (before.length + gap.length) column := by
  induction h generalizing before with
  | nil => exact absurd hg (by simpa using hl)
  | @blank c others hb _ ih =>
    rw [List.length_cons] at hg
    by_cases hlt : column < before.length + 1
    · have heq : before.length = column := by omega
      subst heq
      exact .inl ⟨c, by simp, hb⟩
    · exact (ih (before ++ [c]) (by simp; omega) (by simp; omega)).behind
  | @comment body others hbody _ ih =>
    have hclosed : '/' :: '*' :: (body ++ closing ++ others) =
        '/' :: '*' :: (body ++ closing) ++ others := rfl
    have hlen : ('/' :: '*' :: (body ++ closing)).length = body.length + 4 := by simp [closing]
    rw [hclosed] at hg ⊢
    rw [List.length_append, hlen] at hg
    by_cases hlt : column < before.length + (body.length + 4)
    · refine .inr ⟨before.length, before.length + 2 + body.length + 2,
        ⟨before, body, others ++ rest, by simp, hbody, rfl, rfl⟩, le_rfl, hl, by omega, ?_⟩
      rw [List.length_append, hlen]
      omega
    · exact .behind (ih _ (by rw [List.length_append, hlen]; omega)
        (by rw [List.length_append, hlen]; omega))

/-- **Between the lexemes** of a text up to its end stand blanks and comments. -/
theorem Yields.exists_gap (h : Yields classify cursor spans place)
    (hend : next? classify place = .ok none) (before : List Char)
    (hb : before.length = cursor.column)
    (hl : cursor.column ≤ column) (hc : column < cursor.endColumn)
    (hs : ∀ s ∈ spans, ¬ s.Covers column) :
    ∃ least most, cursor.column ≤ least ∧ (∀ s ∈ spans, s.stop ≤ least ∨ most ≤ s.column) ∧
      Idle (before ++ cursor.rest) least most column := by
  induction h generalizing before with
  | done =>
    rename_i cursor
    have hidle : Idle (before ++ cursor.rest ++ []) _ _ column :=
      (trivia_of_next? hend).idle before [] (by omega) (by rwa [hb])
    rw [List.append_nil] at hidle
    exact ⟨_, _, hb.ge, by simp, hidle⟩
  | @next cursor located after spans place hn hy ih =>
    obtain ⟨gap, spelled, hrest, hgap, -, hbegin, hstop, -⟩ := exists_spelled hn
    have hcolumn := next?_column hn
    by_cases hlt : column < located.column
    · have hidle : Idle (before ++ gap ++ (spelled ++ after.rest)) _ _ column :=
        hgap.idle before _ (by omega) (by omega)
      rw [List.append_assoc, ← hrest] at hidle
      refine ⟨_, _, hb.ge, fun s hs => .inr ?_, hidle⟩
      rcases List.mem_cons.mp hs with rfl | hs
      · simp only
        omega
      · have := (hy.bounds s hs).1
        omega
    · -- the character is not of this lexeme, so it stands behind it
      have hbehind : after.column ≤ column := by
        by_contra hbefore
        exact hs _ List.mem_cons_self ⟨by simpa using hlt, by simpa using hbefore⟩
      obtain ⟨least, most, hleast, hspans, hidle⟩ := ih hend (before ++ gap ++ spelled)
        (by simp only [List.length_append]; omega) hbehind (by rwa [(next?_endColumn hn).1])
        fun s hm => hs s (List.mem_cons_of_mem _ hm)
      rw [List.append_assoc, List.append_assoc, ← hrest] at hidle
      refine ⟨least, most, by omega, fun s hm => ?_, hidle⟩
      rcases List.mem_cons.mp hm with rfl | hm
      · exact .inl hleast
      · exact hspans s hm

/-- **Lexemes tile the text.** Whatever words mean, scanning a text from its beginning ends: every
lexeme takes up characters of the text behind those of the lexemes before, and scanning goes on
where it ends. If it comes to an end of the text, what no lexeme takes up are blanks, and comments
that go from where they are opened to the first place where they can be closed; if it fails, this
shows in the text. -/
theorem scanning_tiles (classify : String → Lexeme) (text : String) :
    ∃ spans place, Yields classify (.start text) spans place ∧
      (0 :: spans.map (·.stop)).IsChain (· < ·) ∧
      (∀ s ∈ spans, s.column < s.stop ∧ s.stop ≤ text.length) ∧
      spans.Pairwise (·.stop ≤ ·.column) ∧
      ((next? classify place = .ok none ∧
          Lexeme.ofText classify text = .ok (spans.map (·.toLocated)) ∧
          ∀ column < text.length, (∀ s ∈ spans, ¬ s.Covers column) →
            ∃ least most, (∀ s ∈ spans, s.stop ≤ least ∨ most ≤ s.column) ∧
              Idle text.toList least most column) ∨
        ∃ e, next? classify place = .error e ∧ Lexeme.ofText classify text = .error e ∧
          e.column < text.length) := by
  obtain ⟨spans, place, h, hend⟩ := exists_yields classify (.start text)
  have hlength : place.endColumn = text.length := by
    rw [h.endColumn, Cursor.endColumn_start, String.length_toList]
  refine ⟨spans, place, h, h.advances, fun s hs => ?_, h.increasing, hend.imp ?_ ?_⟩
  · have := h.bounds s hs
    simp only [Cursor.endColumn] at hlength
    omega
  · intro hnone
    refine ⟨hnone, h.ofText hnone, fun column hc hs => ?_⟩
    obtain ⟨least, most, -, hspans, hidle⟩ := h.exists_gap hnone [] rfl
      (Nat.zero_le column) (by rwa [← h.endColumn, hlength]) hs
    exact ⟨least, most, hspans, hidle⟩
  · rintro ⟨e, herror⟩
    exact ⟨e, herror, h.ofText_error herror, hlength ▸ column_lt_of_next?_error herror⟩

end Lexeme

end PanelCalc
