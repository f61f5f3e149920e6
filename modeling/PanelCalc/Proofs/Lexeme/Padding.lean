import PanelCalc.Proofs.Lexeme.Tiling

/-! # Blanks and comments put into a text

At the ends of a text and on both sides of every lexeme, blanks and comments may
be put in: the text keeps its lexemes, which only move, and so does the error of
a text that is no formula. -/
namespace PanelCalc

open Text (Cursor EndsAs)

namespace Lexeme

variable {classify : String → Lexeme} {cursor place : Cursor} {spans : List Span}
  {column : Nat} {chars rest gap : List Char}

/-! ## Putting characters in -/

section Weave

variable (before : Nat → List Char)

/-- Characters from a column on, each behind what is put in front of it. -/
def weave (column : Nat) : List Char → List Char
  | [] => []
  | c :: rest => before column ++ c :: weave (column + 1) rest

/-- Characters from a column on, with what is put in front of each and at the end. -/
def pad (column : Nat) (chars : List Char) : List Char :=
  weave before column chars ++ before (column + chars.length)

/-- How many characters are put in up to a column, without those at the column itself. -/
def added (column : Nat) : Nat := ((List.range column).flatMap before).length

variable {before}

theorem added_succ : added before (column + 1) = added before column + (before column).length := by
  simp [added, List.range_succ]

theorem weave_append : weave before column (chars ++ rest) =
    weave before column chars ++ weave before (column + chars.length) rest := by
  induction chars generalizing column with
  | nil => rfl
  | cons c chars ih =>
    rw [List.cons_append, weave, weave, ih, List.length_cons, List.append_assoc, List.cons_append,
      Nat.add_assoc, Nat.add_comm 1]

theorem pad_append : pad before column (chars ++ rest) =
    weave before column chars ++ pad before (column + chars.length) rest := by
  rw [pad, pad, weave_append, List.append_assoc, List.length_append, Nat.add_assoc]

theorem length_weave : (weave before column chars).length + added before column =
    chars.length + added before (column + chars.length) := by
  induction chars generalizing column with
  | nil => rfl
  | cons c chars ih =>
    have hnext := @ih (column + 1)
    rw [added_succ, Nat.add_assoc, Nat.add_comm 1] at hnext
    simp only [weave, List.length_append, List.length_cons]
    omega

theorem weave_self (h : ∀ i, column ≤ i → i < column + chars.length → before i = []) :
    weave before column chars = chars := by
  induction chars generalizing column with
  | nil => rfl
  | cons c chars ih =>
    rw [List.length_cons] at h
    rw [weave, h column le_rfl (by omega), ih fun i hl hi => h i (by omega) (by omega)]
    rfl

/-- Where nothing is put in between them, characters stay together. -/
theorem weave_eq (h : ∀ i, column < i → i < column + chars.length → before i = [])
    (hne : chars ≠ []) : weave before column chars = before column ++ chars := by
  obtain ⟨c, chars, rfl⟩ := List.exists_cons_of_ne_nil hne
  rw [List.length_cons] at h
  rw [weave, weave_self fun i hl hi => h i (by omega) (by omega)]

/-- What is put in front comes first, and then the same character as before. -/
theorem exists_pad (before : Nat → List Char) (column : Nat) (rest : List Char) :
    ∃ others, pad before column rest = before column ++ others ∧ others.head? = rest.head? := by
  cases rest with
  | nil => exact ⟨[], (List.append_nil _).symm, rfl⟩
  | cons c rest =>
    exact ⟨c :: (weave before (column + 1) rest ++ before (column + (c :: rest).length)),
      by rw [pad, weave, List.append_assoc, List.cons_append], rfl⟩

end Weave

theorem Trivia.endsAs {others : List Char} (h : Trivia gap) (hs : others.head? = rest.head?) :
    EndsAs rest (gap ++ others) := by
  cases gap with
  | nil => exact .inl hs
  | cons c gap => exact .inr (.inl h.parted)

/-- Blanks and comments stay what they are if others are put in at their ends. -/
theorem Trivia.weave {before : Nat → List Char} (ht : ∀ column, Trivia (before column))
    (h : Trivia gap) (hb : ∀ i, column < i → i < column + gap.length → before i = []) :
    Trivia (weave before column gap) := by
  cases gap with
  | nil => exact .nil
  | cons c gap => exact weave_eq hb (List.cons_ne_nil c gap) ▸ (ht column).append h

/-! ## One lexeme after the other -/

/-- Blanks and comments are put in only at the ends of what is scanned and of its lexemes. -/
def Seamed (before : Nat → List Char) (cursor : Cursor) (spans : List Span) : Prop :=
  ∀ column, cursor.column ≤ column → before column ≠ [] → column = cursor.column ∨
    column = cursor.endColumn ∨ ∃ s ∈ spans, column = s.column ∨ column = s.stop

/-- The place with what is put in from there on. -/
def padCursor (before : Nat → List Char) (cursor : Cursor) : Cursor :=
  ⟨cursor.column + added before cursor.column, pad before cursor.column cursor.rest⟩

/-- The lexeme where it has moved to. -/
def padSpan (before : Nat → List Char) (s : Span) : Span :=
  ⟨s.toLocated.shift (added before (s.column + 1)), s.stop + added before s.stop⟩

variable {before : Nat → List Char} {located : Located} {after : Cursor}

/-- Nothing is put in between a place and the end of the next lexeme, except where it begins. -/
theorem Seamed.eq_nil (hs : Seamed before cursor (⟨located, after.column⟩ :: spans))
    (hn : next? classify cursor = .ok (some (located, after)))
    (hy : Yields classify after spans place) {i : Nat} (hl : cursor.column < i)
    (hi : i < after.column) (hne : i ≠ located.column) : before i = [] := by
  by_contra hput
  have hcolumn := next?_column hn
  rcases hs i hl.le hput with h | h | ⟨s, hm, h⟩
  · omega
  · omega
  · rcases List.mem_cons.mp hm with rfl | hm
    · simp only at h
      omega
    · have := hy.bounds s hm
      omega

theorem Seamed.next (hs : Seamed before cursor (⟨located, after.column⟩ :: spans))
    (hn : next? classify cursor = .ok (some (located, after))) : Seamed before after spans := by
  have hcolumn := next?_column hn
  intro column hl hput
  rcases hs column (by omega) hput with h | h | ⟨s, hm, h⟩
  · omega
  · exact .inr (.inl (h.trans (next?_endColumn hn).1.symm))
  · rcases List.mem_cons.mp hm with rfl | hm
    · simp only at h
      omega
    · exact .inr (.inr ⟨s, hm, h⟩)

/-- The next lexeme is found behind what is put in front of it. -/
theorem next?_padCursor (ht : ∀ column, Trivia (before column))
    (hn : next? classify cursor = .ok (some (located, after)))
    (hb : ∀ i, cursor.column < i → i < after.column → i ≠ located.column → before i = []) :
    next? classify (padCursor before cursor) =
      .ok (some (located.shift (added before (located.column + 1)), padCursor before after)) := by
  obtain ⟨gap, spelled, hrest, hgap, hne, hbegin, hstop, hspelled⟩ := exists_spelled hn
  have hpos := List.length_pos_iff.mpr hne
  have hlead : Trivia (weave before cursor.column gap ++ before located.column) :=
    (hgap.weave ht fun i hl hi => hb i hl (by omega) (by omega)).append (ht _)
  have htaken : weave before located.column spelled = before located.column ++ spelled :=
    weave_eq (fun i hl hi => hb i (by omega) (by omega) (by omega)) hne
  have hchars : pad before cursor.column cursor.rest =
      (weave before cursor.column gap ++ before located.column) ++
        (spelled ++ pad before after.column after.rest) := by
    rw [hrest, pad_append, pad_append, ← hbegin, ← hstop, htaken]
    simp only [List.append_assoc]
  obtain ⟨others, hpad, hhead⟩ := exists_pad before after.column after.rest
  have hends : EndsAs after.rest (pad before after.column after.rest) :=
    hpad ▸ (ht after.column).endsAs hhead
  have hgapLength := @length_weave cursor.column gap before
  have htakenLength := @length_weave located.column spelled before
  rw [← hbegin] at hgapLength
  rw [← hstop, htaken, List.length_append] at htakenLength
  rw [padCursor, hchars, next?_of_trivia_append hlead, hspelled _ _ hends]
  simp only [Located.shift, padCursor, List.length_append, added_succ, Except.ok.injEq,
    Option.some.injEq, Prod.mk.injEq, Located.mk.injEq, Cursor.mk.injEq, true_and, and_true]
  omega

/-- **Blanks and comments between lexemes** only move the lexemes. -/
theorem Yields.padded (ht : ∀ column, Trivia (before column))
    (h : Yields classify cursor spans place) (hend : next? classify place = .ok none)
    (hs : Seamed before cursor spans) :
    ∃ place', Yields classify (padCursor before cursor) (spans.map (padSpan before)) place' ∧
      next? classify place' = .ok none := by
  induction h with
  | @done cursor =>
    have hgap : Trivia (weave before cursor.column cursor.rest) := by
      refine (trivia_of_next? hend).weave ht fun i hl hi => ?_
      by_contra hput
      rcases hs i hl.le hput with h | h | ⟨s, hm, -⟩
      · omega
      · simp only [Cursor.endColumn] at h
        omega
      · cases hm
    exact ⟨_, .done, next?_of_trivia (hgap.append (ht _)) _⟩
  | next hn hy ih =>
    obtain ⟨place', hy', hend'⟩ := ih hend (hs.next hn)
    exact ⟨place', .next (next?_padCursor ht hn fun i hl hi hne => hs.eq_nil hn hy hl hi hne) hy',
      hend'⟩

/-! ## Into a whole text -/

/-- The columns of a text where something may be put in: its ends, and those of its lexemes. -/
def Seam (classify : String → Lexeme) (text : String) (column : Nat) : Prop :=
  column = 0 ∨ column = text.length ∨ ∃ spans place, Yields classify (.start text) spans place ∧
    ∃ s ∈ spans, column = s.column ∨ column = s.stop

/-- Blanks and comments to put into a text, at each column in front of its character. -/
structure Padding (classify : String → Lexeme) (text : String) where
  before : Nat → List Char
  trivia (column : Nat) : Trivia (before column)
  seam (column : Nat) : before column ≠ [] → Seam classify text column

namespace Padding

variable {text : String}

/-- The text with what is put in. -/
def padded (p : Padding classify text) : String := .ofList (pad p.before 0 text.toList)

/-- How many characters are put in before the character at a column, or before the end. -/
def shift (p : Padding classify text) (column : Nat) : Nat := added p.before (column + 1)

variable {p : Padding classify text}

theorem start_padded : Cursor.start p.padded = padCursor p.before (.start text) := by
  simp [padded, padCursor, Cursor.start, added]

theorem length_padded : p.padded.length = text.length + p.shift text.length := by
  have hlength := @length_weave 0 text.toList p.before
  simp only [added, List.range_zero, List.flatMap_nil, List.length_nil, Nat.zero_add] at hlength
  simp only [padded, pad, shift, added_succ, String.length_ofList, List.length_append,
    Nat.zero_add, String.length_toList] at hlength ⊢
  rw [added]
  omega

theorem seamed (h : Yields classify (.start text) spans place)
    (hend : next? classify place = .ok none) : Seamed p.before (.start text) spans := by
  intro column _ hput
  rcases p.seam column hput with h0 | hlast | ⟨spans', place', h', s, hs, hcolumn⟩
  · exact .inl h0
  · exact .inr (.inl (by rwa [Cursor.endColumn_start, String.length_toList]))
  · exact .inr (.inr ⟨s, (h'.prefix_of_end h hend).subset hs, hcolumn⟩)

end Padding

/-- Lexemes that have moved are taken as before, and an error moves with its lexeme. -/
theorem foldlM_padSpan {g : Grammar} {b : Builder} :
    (spans.map (padSpan before)).foldlM (fun b s => g.take b s.toLocated) b =
      (spans.foldlM (fun b s => g.take b s.toLocated) b).mapError
        fun e => e.shift (added before (e.column + 1)) := by
  induction spans generalizing b with
  | nil => rfl
  | cons s spans ih =>
    rw [List.map_cons, List.foldlM_cons, List.foldlM_cons, padSpan, Grammar.take_shift]
    cases ht : g.take b s.toLocated with
    | ok b' => exact ih
    | error e =>
      obtain ⟨fault, -, rfl⟩ := Grammar.take_eq_error.mp ht
      rfl

end Lexeme

open Lexeme (Padding)

/-- **Blanks and comments do not matter.** If a text has lexemes, then at its ends and those of its
lexemes any blanks and comments may be put in. The text keeps its lexemes, each moved by what is put
in before it, and is the same program, or no formula for the same reason, which shows at the column
that has moved likewise. -/
theorem Formula.parse_padded {H : Type} (v : Vocabulary H) {text : String} {ls : List Located}
    (h : Lexeme.ofText v.classify text = .ok ls) (p : Padding v.classify text) :
    Lexeme.ofText v.classify p.padded = .ok (ls.map fun l => l.shift (p.shift l.column)) ∧
      parse v p.padded = (parse v text).mapError fun e => e.shift (p.shift e.column) := by
  obtain ⟨spans, place, hy, hend⟩ := Lexeme.exists_yields v.classify (.start text)
  have hnone : Lexeme.next? v.classify place = .ok none := by
    refine hend.resolve_right fun ⟨e, he⟩ => ?_
    rw [hy.ofText_error he] at h
    cases h
  obtain ⟨place', hy', hnone'⟩ := hy.padded p.trivia hnone (p.seamed hy hnone)
  rw [← p.start_padded] at hy'
  rw [hy.ofText hnone] at h
  cases h
  constructor
  · rw [hy'.ofText hnone', List.map_map, List.map_map]
    rfl
  · have hread : v.grammar.read text = _ := Lexeme.Yields.read hy hnone
    have hread' : v.grammar.read p.padded = _ := Lexeme.Yields.read hy' hnone'
    rw [parse, parse, hread, hread', Lexeme.foldlM_padSpan]
    cases spans.foldlM (fun b s => v.grammar.take b s.toLocated) .start with
    | error e => rfl
    | ok b =>
      simp only [Except.mapError, bind, Except.bind, p.length_padded]
      cases b.finish <;> rfl

/-- A comment between a slash and a parenthesis, which is no operand. -/
theorem Formula.parse_padded_slash :
    ∃ p : Padding (Vocabulary.builtin .upper : Vocabulary Empty).classify "a/)",
      p.padded = "a//**/)" ∧
      Lexeme.ofText (Vocabulary.builtin .upper : Vocabulary Empty).classify p.padded =
        .ok [⟨.identifier "a", 0⟩, ⟨.operator "/", 1⟩, ⟨.closeParen, 6⟩] ∧
      parse (.builtin .upper : Vocabulary Empty) p.padded =
        .error ⟨6, .structural (.unexpected .closeParen)⟩ := by
  let v : Vocabulary Empty := .builtin .upper
  have hname : Lexeme.next? v.classify (.start "a/)") =
      .ok (some (⟨.identifier "a", 0⟩, ⟨1, ['/', ')']⟩)) := by decide +kernel
  have hslash : Lexeme.next? v.classify ⟨1, ['/', ')']⟩ =
      .ok (some (⟨.operator "/", 1⟩, ⟨2, [')']⟩)) := by decide +kernel
  have hls : Lexeme.ofText v.classify "a/)" =
      .ok [⟨.identifier "a", 0⟩, ⟨.operator "/", 1⟩, ⟨.closeParen, 2⟩] := by decide +kernel
  have hread : v.grammar.read "a/)" = .error ⟨2, .structural (.unexpected .closeParen)⟩ := by
    decide +kernel
  let p : Padding v.classify "a/)" :=
    { before := fun column => if column = 2 then ['/', '*', '*', '/'] else []
      trivia := fun column => by
        split
        · exact @Lexeme.Trivia.comment [] [] (by decide) .nil
        · exact .nil
      seam := fun column hput => by
        have hcolumn : column = 2 := by
          by_contra hne
          exact hput (if_neg hne)
        exact .inr (.inr ⟨_, _, .next hname (.next hslash .done), _,
          List.mem_cons_of_mem _ List.mem_cons_self, .inr hcolumn⟩) }
  obtain ⟨hlexemes, hparse⟩ := Formula.parse_padded v hls p
  refine ⟨p, rfl, hlexemes, hparse.trans ?_⟩
  rw [parse, hread]
  rfl

end PanelCalc
