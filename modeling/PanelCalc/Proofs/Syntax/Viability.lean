import PanelCalc.Proofs.Lexeme.Tiling
import PanelCalc.Proofs.Syntax.Balance

/-! # Errors show where a formula cannot go on

Whatever lexemes a builder has taken, others may follow that make them a formula:
an operand where one is expected, and then the parentheses that count as open.
So a lexeme is refused as soon as no formula goes on with it. -/
namespace PanelCalc

open Text (Cursor EndsAs Parted)

namespace Lexeme

variable {classify : String → Lexeme} {cursor place : Cursor} {spans : List Span}
  {ls : List Lexeme} {rest : List Char}

/-! ## What scanning has found -/

/-- Lexemes are found again if something else follows them that goes on with none. -/
theorem Yields.exists_taken (h : Yields classify cursor spans place) :
    ∃ taken, cursor.rest = taken ++ place.rest ∧ ∀ rest, Parted rest →
      Yields classify ⟨cursor.column, taken ++ rest⟩ spans ⟨place.column, rest⟩ := by
  induction h with
  | done => exact ⟨[], rfl, fun _ _ => .done⟩
  | @next cursor located after _ _ hn _ ih =>
    obtain ⟨gap, spelled, hrest, hgap, -, hbegin, hstop, hspelled⟩ := exists_spelled hn
    obtain ⟨taken, htaken, hy⟩ := ih
    refine ⟨gap ++ (spelled ++ taken), by rw [hrest, htaken]; simp, fun rest hp => ?_⟩
    have hends : EndsAs after.rest (taken ++ rest) := by
      cases taken with
      | nil => exact .inr (.inl hp)
      | cons c taken => exact .inl (by rw [htaken]; rfl)
    have hnext : next? classify ⟨cursor.column, gap ++ (spelled ++ taken) ++ rest⟩ =
        .ok (some (located, ⟨after.column, taken ++ rest⟩)) := by
      rw [List.append_assoc, List.append_assoc, next?_of_trivia_append hgap, hspelled _ _ hends,
        ← hbegin, ← hstop]
    exact (Yields.next hnext (hy rest hp) :)

theorem Yields.lexes (h : Yields classify cursor spans place) (hl : Lexes classify place ls) :
    Lexes classify cursor (spans.map (·.lexeme) ++ ls) := by
  induction h with
  | done => exact hl
  | next hn _ ih => exact .next hn (ih hl)

/-! ## Text for an operand and for closing parentheses -/

theorem scans_closers (classify : String → Lexeme) (n : Nat) :
    Scans classify (.replicate n ')') (.replicate n closeParen) [] := by
  induction n with
  | zero => exact .done
  | succ n ih =>
    exact .next (fun column => ⟨_, next?_of_read (by decide) (.inl (by decide)) rfl⟩) ih

theorem scans_one (hr : ∀ c ∈ rest.head?, c.isDigit = false ∧ c ≠ '.')
    (h : Scans classify rest ls []) :
    Scans classify ('1' :: rest) (number (numeralValue ['1']) :: ls) [] :=
  .next (fun column => next?_numeral ⟨'1', [], rfl, rfl, rfl⟩ rfl hr column) h

end Lexeme

open Lexeme (Yields Lexes Scans)

namespace Builder

variable {g : Grammar} {b b' : Builder} {l : Lexeme} {spans : List Span}

/-! ## Formulas can be completed -/

/-- A builder that lexemes have led to. -/
structure Ongoing (b : Builder) : Prop where
  balanced : b.Balanced
  started : b.expected.endsOperand → b.started

theorem ongoing_start : start.Ongoing := ⟨balanced_start, nofun⟩

theorem Ongoing.accept (hb : b.Ongoing) (h : b.accept g l = .ok b') : b'.Ongoing :=
  have h := accept_eq_ok.mp h
  ⟨hb.balanced.accept h, fun _ => h.started⟩

/-- Lexemes that are taken lead from builder to builder. -/
theorem Ongoing.foldlM (hb : b.Ongoing)
    (h : spans.foldlM (fun b s => g.take b s.toLocated) b = .ok b') :
    b'.Ongoing ∧ ∀ ls, b.run g (spans.map (·.lexeme) ++ ls) = b'.run g ls := by
  induction spans generalizing b with
  | nil =>
    cases h
    exact ⟨hb, fun _ => rfl⟩
  | cons s spans ih =>
    rw [List.foldlM_cons] at h
    cases ht : g.take b s.toLocated with
    | error e =>
      rw [ht] at h
      cases h
    | ok next =>
      rw [ht] at h
      have ha := Grammar.take_eq_ok.mp ht
      obtain ⟨hb', hrun⟩ := ih (hb.accept ha) h
      exact ⟨hb', fun ls => (run_cons_ok ha).trans (hrun ls)⟩

/-- Behind an operand it is enough to close the parentheses that are counted. -/
theorem Ongoing.exists_closers (hb : b.Ongoing) (he : b.expected.endsOperand)
    (classify : String → Lexeme) :
    ∃ chars ls program, Scans classify chars ls [] ∧ b.run g ls = .ok program ∧
      ∀ c ∈ chars.head?, c = ')' :=
  ⟨_, _, _, Lexeme.scans_closers classify _, hb.balanced.run_closers (hb.started he) he,
    fun _ hc => List.eq_of_mem_replicate (List.mem_of_mem_head? hc)⟩

/-- Where an operand begins, a number goes before them. -/
theorem Ongoing.exists_operand (hb : b.Ongoing) (he : b.expected.beginsOperand)
    (classify : String → Lexeme) :
    ∃ chars ls program, Scans classify chars ls [] ∧ b.run g ls = .ok program := by
  have ha := (Accepts.operand (g := g) (l := .number (Lexeme.numeralValue ['1'])) he rfl).accept
  obtain ⟨chars, ls, program, hscan, hrun, hhead⟩ := (hb.accept ha).exists_closers rfl classify
  refine ⟨_, _, program, Lexeme.scans_one (fun c hc => ?_) hscan, (run_cons_ok ha).trans hrun⟩
  rw [hhead c hc]
  decide

/-- **Whatever has been taken, a formula can be completed.** -/
theorem Ongoing.exists_completion (hb : b.Ongoing) (classify : String → Lexeme) :
    ∃ chars ls program, Scans classify chars ls [] ∧ b.run g ls = .ok program := by
  cases hx : b.expected with
  | afterLiteral | afterCallable =>
    obtain ⟨chars, ls, program, hscan, hrun, -⟩ :=
      hb.exists_closers (by rw [hx]; rfl) classify
    exact ⟨chars, ls, program, hscan, hrun⟩
  | operand | argument => exact hb.exists_operand (by rw [hx]; rfl) classify
  | group =>
    have ha := (Accepts.opened (g := g) (.inr hx)).accept
    obtain ⟨chars, ls, program, hscan, hrun⟩ := (hb.accept ha).exists_operand rfl classify
    have hopen : Scans classify ('(' :: chars) (.openParen :: ls) [] :=
      .next (fun column => ⟨_, Lexeme.next?_of_read (by decide) (.inl (by decide)) rfl⟩) hscan
    exact ⟨_, _, program, hopen, (run_cons_ok ha).trans hrun⟩

end Builder

/-! ## Where reading fails -/

/-- Reading fails at the end of the text, where no lexeme can be scanned or where one is refused. -/
theorem Grammar.exists_of_read_error {g : Grammar} {text : String} {e : CompileError}
    (h : g.read text = .error e) : ∃ spans place b, Yields g.classify (.start text) spans place ∧
      spans.foldlM (fun b s => g.take b s.toLocated) .start = .ok b ∧
      ((Lexeme.next? g.classify place = .ok none ∧
          ∃ fault, e = ⟨text.length, .structural fault⟩) ∨
        Lexeme.next? g.classify place = .error e ∨
        ∃ located next fault, Lexeme.next? g.classify place = .ok (some (located, next)) ∧
          b.accept g located.lexeme = .error fault ∧ e = ⟨located.column, .structural fault⟩) := by
  obtain ⟨spans, place, b, hy, hf, hend⟩ :=
    Lexeme.exists_fold g.classify g.take .start (.start text)
  refine ⟨spans, place, b, hy, hf, ?_⟩
  rw [read, Cursor.endColumn_start, String.length_toList] at h
  rcases hend with ⟨hnone, hfold⟩ | ⟨e', hfold, hend⟩
  · rw [hfold] at h
    cases hfinish : b.finish with
    | ok program => simp [bind, Except.bind, hfinish, Except.mapError] at h
    | error fault =>
      simp only [bind, Except.bind, hfinish, Except.mapError, Except.error.injEq] at h
      exact .inl ⟨hnone, fault, h.symm⟩
  · rw [hfold] at h
    cases h
    rcases hend with herror | ⟨located, next, hnext, ht⟩
    · exact .inr (.inl herror)
    · obtain ⟨fault, ha, he⟩ := take_eq_error.mp ht
      exact .inr (.inr ⟨located, next, fault, hnext, ha, he⟩)

/-! ## Beginnings of formulas -/

section Formula

variable {H : Type} {v : Vocabulary H} {b : Builder} {place : Cursor} {spans : List Span}
  {text : String}

/-- Lexemes that some formula begins with. -/
def Vocabulary.Viable (v : Vocabulary H) (ls : List Lexeme) : Prop :=
  ∃ text more f, Lexes v.classify (.start text) (ls ++ more) ∧ Formula.parse v text = .ok f

theorem Vocabulary.viable_of_yields (hy : Yields v.classify (.start text) spans place)
    (hf : spans.foldlM (fun b s => v.grammar.take b s.toLocated) .start = .ok b) :
    v.Viable (spans.map (·.lexeme)) := by
  obtain ⟨hb, hrun⟩ := Builder.ongoing_start.foldlM hf
  obtain ⟨chars, ls, program, hscan, hprogram⟩ := hb.exists_completion v.classify
  obtain ⟨taken, -, hmoved⟩ := hy.exists_taken
  have hblank : Parted (' ' :: chars) := by
    intro c hc
    cases hc
    exact .inl (by decide)
  obtain ⟨column, hall⟩ := Lexeme.lexes_of_scans hscan (place.column + 1)
  have hls : Lexes v.classify ⟨place.column, ' ' :: chars⟩ ls :=
    Lexeme.lexes_blank.mpr ((hall ls).mpr ⟨[], by simp, .done Lexeme.next?_nil⟩)
  have hlexes : Lexes v.classify (.start (.ofList (taken ++ ' ' :: chars)))
      (spans.map (·.lexeme) ++ ls) := by
    rw [Cursor.start, String.toList_ofList]
    exact (hmoved _ hblank).lexes hls
  have hread := Grammar.read_eq_ok.mpr ⟨_, hlexes, (hrun ls).trans hprogram⟩
  exact ⟨_, ls, _, hlexes, Formula.parse_eq_ok.mpr ⟨program, hread, rfl⟩⟩

theorem Vocabulary.not_viable_of_accept {l : Lexeme} {fault : ParseFault}
    (hf : spans.foldlM (fun b s => v.grammar.take b s.toLocated) .start = .ok b)
    (ha : b.accept v.grammar l = .error fault) : ¬ v.Viable (spans.map (·.lexeme) ++ [l]) := by
  rintro ⟨text, more, f, hl, hp⟩
  obtain ⟨program, hread, -⟩ := Formula.parse_eq_ok.mp hp
  obtain ⟨ls, hls, hrun⟩ := Grammar.read_eq_ok.mp hread
  rw [hls.unique hl, List.append_assoc, (Builder.ongoing_start.foldlM hf).2] at hrun
  exact Builder.run_refused ha hrun

/-- Why a formula does not go on behind the lexemes that have been found up to a place. -/
inductive Formula.Halts (v : Vocabulary H) (text : String) (found : List Lexeme) (place : Cursor) :
    CompileError → Prop
  /-- No formula goes on with the next lexeme. -/
  | lexeme {located next fault} : Lexeme.next? v.classify place = .ok (some (located, next)) →
      ¬ v.Viable (found ++ [located.lexeme]) → Halts v text found place
        ⟨located.column, .structural fault⟩
  /-- There is no next lexeme that can be scanned. -/
  | scanning {column fault} : Lexeme.next? v.classify place = .error ⟨column, .lexical fault⟩ →
      Halts v text found place ⟨column, .lexical fault⟩
  /-- There is no next lexeme. -/
  | ending {fault} : Lexeme.next? v.classify place = .ok none →
      Halts v text found place ⟨text.length, .structural fault⟩

/-- **Errors show at the first lexeme that is out of place.** If a text is no formula, then some
formula begins with the lexemes before the error, and the error is at the next lexeme because no
formula goes on with it, or where this lexeme cannot be scanned, or behind all lexemes, at the end
of the text. It is at the end of the text only in the last case, and never behind it. -/
theorem Formula.parse_halts (v : Vocabulary H) {e : CompileError} (h : parse v text = .error e) :
    ∃ spans place, Yields v.classify (.start text) spans place ∧
      v.Viable (spans.map (·.lexeme)) ∧ Halts v text (spans.map (·.lexeme)) place e ∧
      e.column ≤ text.length ∧
      (e.column = text.length ↔ Lexeme.next? v.classify place = .ok none) := by
  obtain ⟨spans, place, b, hy, hf, hend⟩ := Grammar.exists_of_read_error (parse_eq_error.mp h)
  have hlength : place.endColumn = text.length := by
    rw [hy.endColumn, Cursor.endColumn_start, String.length_toList]
  refine ⟨spans, place, hy, Vocabulary.viable_of_yields hy hf, ?_⟩
  rcases hend with ⟨hnone, fault, rfl⟩ | herror | ⟨located, next, fault, hnext, ha, rfl⟩
  · exact ⟨.ending hnone, le_rfl, iff_of_true rfl hnone⟩
  · have hcolumn := Lexeme.column_lt_of_next?_error herror
    obtain ⟨fault, hfault⟩ := Lexeme.lexical_of_next?_error herror
    obtain ⟨column, _⟩ := e
    subst hfault
    rw [hlength] at hcolumn
    refine ⟨.scanning herror, hcolumn.le, iff_of_false hcolumn.ne fun hnone => ?_⟩
    cases herror.symm.trans hnone
  · have hcolumn := Lexeme.next?_column hnext
    have hlt : located.column < text.length := by omega
    refine ⟨.lexeme hnext (Vocabulary.not_viable_of_accept hf ha), hlt.le,
      iff_of_false hlt.ne fun hnone => ?_⟩
    cases hnext.symm.trans hnone

/-- An argument is missing behind the comma. -/
theorem Formula.parse_halts_comma : ∃ spans place,
    Yields (Vocabulary.builtin .upper : Vocabulary Empty).classify (.start "f(1,)") spans place ∧
      (Vocabulary.builtin .upper : Vocabulary Empty).Viable (spans.map (·.lexeme)) ∧
      Halts (.builtin .upper : Vocabulary Empty) "f(1,)" (spans.map (·.lexeme)) place
        ⟨4, .structural (.unexpected .closeParen)⟩ := by
  have hread : (Vocabulary.builtin .upper : Vocabulary Empty).grammar.read "f(1,)" =
      .error ⟨4, .structural (.unexpected .closeParen)⟩ := by
    decide +kernel
  obtain ⟨spans, place, hy, hviable, hhalts, -⟩ := Formula.parse_halts _ (parse_eq_error.mpr hread)
  exact ⟨spans, place, hy, hviable, hhalts⟩

end Formula

end PanelCalc
