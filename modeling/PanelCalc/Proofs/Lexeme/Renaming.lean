import PanelCalc.Proofs.Lexeme.Lookahead
import PanelCalc.Proofs.Lexeme.Meanings

/-! # The same text with other names

The names in a text are written in another way, and all that stands between and
beside them is left as it is. Where the new names are words that mean what the
old ones did, the new text has the lexemes of the old one under their new names:
a word ends where the next lexeme begins, and no lexeme before a word depends on
which word it is. -/
namespace PanelCalc

open Text (Cursor EndsAs opensWord continuesWord)

namespace Lexeme

/-- The name that a lexeme is. Operators between operands keep theirs, with letters or without. -/
def properName? : Lexeme → Option String
  | namedUnary name | identifier name => some name
  | _ => none

/-- The lexeme under its new name, if it is a name. -/
def rename (ρ : String → String) : Lexeme → Lexeme
  | namedUnary name => namedUnary (ρ name)
  | identifier name => identifier (ρ name)
  | other => other

/-- How a lexeme is written anew that has been written as `spelled`. -/
def respelled (ρ : String → String) (spelled : List Char) (l : Lexeme) : List Char :=
  match l.properName? with
  | some name => (ρ name).toList
  | none => spelled

/-- The characters from a place on, with every name replaced by its new one. -/
def respell (classify : String → Lexeme) (ρ : String → String) (cursor : Cursor) : List Char :=
  match _found : next? classify cursor with
  | .ok (some (located, next)) =>
    let (gap, behind) := cursor.rest.splitAt (located.column - cursor.column)
    gap ++ (located.lexeme.respelled ρ (behind.take (next.column - located.column)) ++
      respell classify ρ next)
  | _ => cursor.rest
termination_by cursor.rest.length
decreasing_by exact next?_length_lt _found

/-- A name is a word that means under its new spelling what it meant, and any other word means it
under its old one. -/
def Carries (classify classify' : String → Lexeme) (ρ : String → String) (l : Lexeme) : Prop :=
  match l.properName? with
  | some name => IsWord (ρ name).toList ∧ classify' (ρ name) = l.rename ρ
  | none => ∀ word, classify word = l → classify' word = l

variable {classify classify' : String → Lexeme} {ρ : String → String} {cursor next : Cursor}
  {located : Located} {l : Lexeme} {gap spelled rest : List Char} {column : Nat}

theorem respell_of_none (h : next? classify cursor = .ok none) :
    respell classify ρ cursor = cursor.rest := by
  rw [respell]
  split <;> simp_all

theorem respell_of_error {e : CompileError} (h : next? classify cursor = .error e) :
    respell classify ρ cursor = cursor.rest := by
  rw [respell]
  split <;> simp_all

theorem respell_of_next? (h : next? classify cursor = .ok (some (located, next)))
    (hrest : cursor.rest = gap ++ (spelled ++ next.rest))
    (hbegin : located.column = cursor.column + gap.length)
    (hstop : next.column = located.column + spelled.length) :
    respell classify ρ cursor =
      gap ++ (located.lexeme.respelled ρ spelled ++ respell classify ρ next) := by
  rw [respell]
  split
  · rename_i located' next' hn
    rw [h] at hn
    cases hn
    have hgap : located.column - cursor.column = gap.length := by omega
    have hspelled : next.column - located.column = spelled.length := by omega
    rw [hgap, hspelled, hrest, List.splitAt_eq]
    simp
  · rename_i hn
    exact absurd h (hn located next)

theorem rename_eq_self (h : l.properName? = none) : l.rename ρ = l := by
  cases l with
  | namedUnary _ | identifier _ => cases h
  | _ => rfl

/-! ## Names are words -/

/-- A name is read from a character that opens a word up to one that does not go on with it. -/
theorem word_of_read {c : Char} (h : read classify column c rest = .ok (l, next))
    (hl : l.properName?.isSome) :
    opensWord c = true ∧ ∀ d ∈ next.rest.head?, continuesWord d = false := by
  by_cases hc : opensWord c = true
  · rcases hspan : spanName (c == '"') rest with ⟨taken, quoted, after⟩
    simp only [read_of_opensWord hc, readWord, hspan] at h
    split at h
    · cases h
    · rename_i hq
      cases h
      rw [Bool.not_eq_true] at hq
      exact ⟨hc, not_continuesWord_of_spanName (hq ▸ hspan)⟩
  · -- any other character begins a symbol, a number or a text, or nothing at all
    exfalso
    rw [opensWord] at hc
    grind [read, readNumber, readText, properName?]

theorem word_of_next? (h : next? classify cursor = .ok (some (located, next)))
    (hl : located.lexeme.properName?.isSome)
    (hrest : cursor.rest = gap ++ (spelled ++ next.rest))
    (hbegin : located.column = cursor.column + gap.length) (hne : spelled ≠ []) :
    (∃ c ∈ spelled.head?, opensWord c = true) ∧
      ∀ d ∈ next.rest.head?, continuesWord d = false := by
  obtain ⟨c, rest, hskip, hread⟩ := next?_some h
  obtain ⟨gap', hgap', -, hcolumn⟩ := exists_trivia hskip
  obtain ⟨hopens, hends⟩ := word_of_read hread hl
  obtain ⟨first, others, rfl⟩ := List.exists_cons_of_ne_nil hne
  rw [hrest] at hgap'
  simp only at hcolumn
  have hchars := (List.append_inj hgap' (by omega)).2
  rw [List.cons_append, List.cons.injEq] at hchars
  exact ⟨⟨first, rfl, hchars.1 ▸ hopens⟩, hends⟩

/-! ## Under new names -/

/-- Whatever lexeme ends before a place ends there in the new text, too. -/
theorem endsAs_respell (h : ∀ located next, next? classify cursor = .ok (some (located, next)) →
    Carries classify classify' ρ located.lexeme) :
    EndsAs cursor.rest (respell classify ρ cursor) := by
  cases hn : next? classify cursor with
  | error e => exact .inl (by rw [respell_of_error hn])
  | ok answer =>
    cases answer with
    | none => exact .inl (by rw [respell_of_none hn])
    | some found =>
      obtain ⟨located, next⟩ := found
      obtain ⟨gap, spelled, hrest, -, hne, hbegin, hstop, -⟩ := exists_spelled hn
      have hl := h located next hn
      rw [respell_of_next? hn hrest hbegin hstop, hrest]
      obtain ⟨c, others, rfl⟩ := List.exists_cons_of_ne_nil hne
      cases gap with
      | cons d gap => exact .inl rfl
      | nil =>
        cases hname : located.lexeme.properName? with
        | none => exact .inl (by rw [respelled, hname]; rfl)
        | some name =>
          simp only [Carries, hname] at hl
          obtain ⟨⟨d, taken, hchars, hd, -⟩, -⟩ := hl
          have hword := word_of_next? hn (by rw [hname]; rfl) hrest hbegin hne
          refine .inr (.inr ⟨hword.1, fun e he => ?_⟩)
          simp only [respelled, hname, hchars] at he
          cases he
          exact hd

/-- The next lexeme is found under its new name. -/
theorem next?_respell (h : next? classify cursor = .ok (some (located, next)))
    (hl : Carries classify classify' ρ located.lexeme)
    (hends : EndsAs next.rest (respell classify ρ next)) (column : Nat) :
    ∃ column' stop, next? classify' ⟨column, respell classify ρ cursor⟩ =
      .ok (some (⟨located.lexeme.rename ρ, column'⟩, ⟨stop, respell classify ρ next⟩)) := by
  obtain ⟨gap, spelled, hrest, hgap, hne, hbegin, hstop, hspelled⟩ := exists_spelled h
  rw [respell_of_next? h hrest hbegin hstop, next?_of_trivia_append hgap]
  refine ⟨column + gap.length, ?_⟩
  cases hname : located.lexeme.properName? with
  | none =>
    simp only [Carries, hname] at hl
    have hfound := hspelled (column + gap.length) _ hends
    simp only [respelled, hname, rename_eq_self hname]
    refine ⟨_, Eq.trans ?_ hfound⟩
    refine next?_congr (P := (· = located.lexeme)) (fun w hw => (hl w hw).trans hw.symm) ?_
    intro other after hn
    rw [hfound] at hn
    cases hn
    rfl
  | some name =>
    simp only [Carries, hname] at hl
    simp only [respelled, hname]
    have hword := word_of_next? h (by rw [hname]; rfl) hrest hbegin hne
    exact next?_word hl.1 hl.2 (hends.not_continuesWord hword.2) _

/-- **The same text with other names** has the same lexemes under their new names. -/
theorem Lexes.respell {ls : List Lexeme} (h : Lexes classify cursor ls)
    (hls : ∀ l ∈ ls, Carries classify classify' ρ l) (column : Nat) :
    Lexes classify' ⟨column, Lexeme.respell classify ρ cursor⟩ (ls.map (rename ρ)) := by
  induction h generalizing column with
  | done hn =>
    rw [respell_of_none hn]
    exact .done (next?_of_trivia (trivia_of_next? hn) _)
  | @next cursor located after ls hn hafter ih =>
    obtain ⟨hl, hls⟩ := List.forall_mem_cons.mp hls
    have hends : EndsAs after.rest (Lexeme.respell classify ρ after) :=
      endsAs_respell fun located next hn' => hls _ (hafter.found_iff.mp (.here hn'))
    obtain ⟨column', stop, hn'⟩ := next?_respell hn hl hends column
    exact (Lexes.next hn' (ih hls stop) :)

end Lexeme

end PanelCalc
