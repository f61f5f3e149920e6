import Mathlib.Data.List.Chain
import PanelCalc.Double.Notation
import PanelCalc.Proofs.Lexeme.Known
import PanelCalc.Proofs.Text.Quoted

/-! # Spelling lexemes

Every lexeme has a canonical spelling, and is found again where it is spelled if
the next character does not belong to it. Operators with letters are spelled
between blanks. -/
namespace PanelCalc

open Text (Cursor opensWord continuesWord)

namespace Lexeme

/-- The canonical spelling. -/
def spelling : Lexeme → List Char
  | operator s => if Text.hasLetter s then ' ' :: (s.toList ++ [' ']) else s.toList
  | number x | constant x => (Double.plain x).toList
  | text s => (Text.Quoted.quote s).toList
  | namedUnary name | identifier name => name.toList
  | openParen => ['(']
  | closeParen => [')']
  | comma => [',']

/-- Whether the spelling ends where the character comes next. -/
def endsBefore (c : Char) : Lexeme → Bool
  | operator s =>
    Text.hasLetter s || if Text.isIdentifier s then !continuesWord c else c != '=' && c != '*'
  | number _ | constant _ => !c.isDigit && c != '.'
  | namedUnary _ | identifier _ => !continuesWord c
  | text _ | openParen | closeParen | comma => true

/-- Spelled one after the other, the first lexeme ends where the second begins. -/
def Apart (l l' : Lexeme) : Prop := ∀ c ∈ l'.spelling.head?, l.endsBefore c = true

instance : DecidableRel Apart := fun l l' =>
  decidable_of_iff (l'.spelling.head?.all l.endsBefore = true) (Option.all_eq_true ..)

/-- What scanning makes of characters up to a rest, wherever they stand. -/
inductive Scans (classify : String → Lexeme) : List Char → List Lexeme → List Char → Prop
  | done {rest} : Scans classify rest [] rest
  | blank {chars ls rest} : Scans classify chars ls rest → Scans classify (' ' :: chars) ls rest
  | next {chars l mid ls rest} : (∀ column, ∃ column',
      next? classify ⟨column, chars⟩ = .ok (some (⟨l, column⟩, ⟨column', mid⟩))) →
      Scans classify mid ls rest → Scans classify chars (l :: ls) rest

variable {classify : String → Lexeme} {column : Nat} {c : Char} {chars taken rest : List Char}

theorem read_of_opensWord (hc : opensWord c = true) :
    read classify column c chars = readWord classify column c chars := by
  have hne : ∀ d, opensWord d = false → c ≠ d := fun d => Text.ne_of_kind opensWord hc
  have hd : (c.isDigit || c == '.') = false := by
    rw [Bool.eq_false_iff]
    intro h'
    rcases Bool.or_eq_true_iff.mp h' with h' | h'
    · rw [Text.not_opensWord_of_isDigit h'] at hc
      cases hc
    · exact hne '.' (by decide) (by simpa using h')
  have hw : (Text.isIdentifierStart c || c == '"') = true := hc
  rw [read, if_neg (hne '(' (by decide)), if_neg (hne ')' (by decide)),
    if_neg (hne ',' (by decide)), symbolAt?_eq_none opensWord hc (by decide +kernel)]
  simp only [hd, Bool.false_eq_true, if_false, if_neg (hne Text.Quoted.mark (by decide)), hw,
    if_true]

theorem next?_word {w : String} {l : Lexeme} (hw : IsWord w.toList) (hl : classify w = l)
    (hr : ∀ c ∈ rest.head?, continuesWord c = false) (column : Nat) :
    ∃ column', next? classify ⟨column, w.toList ++ rest⟩ =
      .ok (some (⟨l, column⟩, ⟨column', rest⟩)) := by
  obtain ⟨c, taken, hchars, hc, hs⟩ := hw
  have hspan : spanName (c == '"') (taken ++ rest) = (taken, false, rest) := by
    rw [spanName_append hs, spanName_of_not_continuesWord hr, List.append_nil]
  have hread : read classify column c (taken ++ rest) =
      .ok (l, ⟨column + 1 + taken.length, rest⟩) := by
    simp only [read_of_opensWord hc, readWord, hspan, Bool.false_eq_true, if_false, ← hchars,
      String.ofList_toList, hl]
  rw [hchars]
  exact ⟨_, next?_of_read (Text.not_isBlank_of_opensWord hc)
    (.inl (Text.ne_of_kind opensWord hc (by decide))) hread⟩

theorem next?_ne_none_of_isWord {w : String} (hw : IsWord w.toList) :
    next? classify ⟨column, w.toList ++ rest⟩ ≠ .ok none := by
  obtain ⟨c, taken, hchars, hc, -⟩ := hw
  rw [hchars]
  exact next?_ne_none (Text.not_isBlank_of_opensWord hc)
    (.inl (Text.ne_of_kind opensWord hc (by decide)))

/-- A word that goes on behind its spelling is another word. -/
theorem next?_longer {w : String} {located : Located} {next : Cursor} (hw : IsWord w.toList)
    (hr : ∃ c ∈ rest.head?, continuesWord c = true)
    (h : next? classify ⟨column, w.toList ++ rest⟩ = .ok (some (located, next))) :
    ∃ w', IsWord w'.toList ∧ w' ≠ w ∧ located.lexeme = classify w' := by
  obtain ⟨c, taken, hchars, hc, hs⟩ := hw
  rw [hchars] at h
  obtain ⟨c', others, hskip, hread⟩ := next?_some h
  rw [List.cons_append, skipTrivia_cons (Text.not_isBlank_of_opensWord hc)
    (.inl (Text.ne_of_kind opensWord hc (by decide)))] at hskip
  cases hskip
  cases hspan : spanName false rest with
  | mk more after =>
    have hall : spanName (c == '"') (taken ++ rest) = (taken ++ more, after) := by
      rw [spanName_append hs, hspan]
    simp only [read_of_opensWord hc, readWord, hall] at hread
    split at hread
    · cases hread
    · rename_i hq
      rw [Bool.not_eq_true] at hq
      refine ⟨String.ofList (c :: (taken ++ more)), ?_, fun heq => ?_, ?_⟩
      · rw [String.toList_ofList]
        refine ⟨c, _, rfl, hc, ?_⟩
        rw [← hq]
        exact spanName_taken hall
      · have hmore : more = [] := by
          have := congrArg String.toList heq
          rw [String.toList_ofList, hchars, List.cons.injEq] at this
          simpa using this.2
        obtain ⟨d, hd, hcont⟩ := hr
        obtain ⟨tail, rfl⟩ := List.head?_eq_some_iff.mp hd
        simp only [continuesWord] at hcont
        rw [spanName, if_pos (by simpa using hcont)] at hspan
        rw [hmore] at hspan
        cases hspan
      · exact (congrArg Prod.fst (Except.ok.inj hread)).symm

theorem read_of_opensNumeral (hc : (c.isDigit || c == '.') = true) :
    read classify column c chars = readNumber column c chars := by
  have hne : ∀ d, (d.isDigit || d == '.') = false → c ≠ d := fun d =>
    Text.ne_of_kind (fun c => c.isDigit || c == '.') hc
  rw [read, if_neg (hne '(' (by decide)), if_neg (hne ')' (by decide)),
    if_neg (hne ',' (by decide)),
    symbolAt?_eq_none (fun c => c.isDigit || c == '.') hc (by decide)]
  simp only [hc, if_true]

theorem read_number (hc : c.isDigit = true) (h : spanNumeral false chars = (taken, rest)) :
    read classify column c chars =
      .ok (number (numeralValue (c :: taken)), ⟨column + 1 + taken.length, rest⟩) := by
  have hp : (c == '.') = false := by simpa using Text.ne_of_kind Char.isDigit hc (by decide)
  rw [read_of_opensNumeral (by simp [hc])]
  simp [hc, readNumber, hp, h]

theorem read_mark : read classify column Text.Quoted.mark chars = readText column chars := by
  rw [read, if_neg (by decide), if_neg (by decide), if_neg (by decide),
    symbolAt?_eq_none (· == Text.Quoted.mark) rfl (by decide)]
  rfl

theorem next?_numeral {x : Float} (hn : IsNumeral chars) (hx : numeralValue chars = x)
    (hr : ∀ c ∈ rest.head?, c.isDigit = false ∧ c ≠ '.') (column : Nat) :
    ∃ column', next? classify ⟨column, chars ++ rest⟩ =
      .ok (some (⟨number x, column⟩, ⟨column', rest⟩)) := by
  obtain ⟨c, taken, rfl, hc, hs⟩ := hn
  rw [← hx]
  exact ⟨_, next?_of_read (Text.not_isBlank_of_isDigit hc)
    (.inl (Text.ne_of_kind Char.isDigit hc (by decide)))
    (read_number hc (spanNumeral_append hs hr))⟩

theorem next?_text (s : String) (column : Nat) :
    next? classify ⟨column, (text s).spelling ++ rest⟩ =
      .ok (some (⟨text s, column⟩, ⟨column + (text s).spelling.length, rest⟩)) := by
  have hs : (text s).spelling =
      Text.Quoted.mark :: (Text.Quoted.encode s.toList ++ [Text.Quoted.mark]) := by
    simp [spelling, Text.Quoted.quote]
  have hd := Text.Quoted.decode_encode s.toList (column + 1) rest
  rw [hs, List.cons_append, List.append_assoc]
  refine next?_of_read (by decide) (.inl (by decide)) ?_
  rw [read_mark, readText, List.singleton_append, hd]
  simp only [String.ofList_toList, List.length_cons, List.length_append, List.length_nil,
    Except.ok.injEq, Prod.mk.injEq, Cursor.mk.injEq, true_and, and_true]
  omega

/-- Of the symbols that begin alike the longer one is taken, if it is there. -/
theorem symbolAt?_append (hr : ∀ c ∈ rest.head?, c ≠ '=') : ∀ symbol ∈ operatorSymbols,
    symbolAt? (symbol.written.toList ++ rest) = some symbol := by
  cases rest with
  | nil => decide
  | cons c rest =>
    have hc : ('=' == c) = false := by simpa using (hr c rfl).symm
    simp [operatorSymbols, symbolAt?, List.isPrefixOf_cons_cons, hc]

theorem next?_symbol {s : String} (hs : isOperatorSymbol s = true)
    (hr : ∀ c ∈ rest.head?, c ≠ '=' ∧ c ≠ '*') (column : Nat) :
    ∃ column', next? classify ⟨column, s.toList ++ rest⟩ =
      .ok (some (⟨operator s, column⟩, ⟨column', rest⟩)) := by
  have hm : (⟨s, s⟩ : OperatorSymbol) ∈ operatorSymbols := by simpa [isOperatorSymbol] using hs
  have firsts : ∀ symbol ∈ operatorSymbols, symbol.written.toList.head?.any (fun c =>
      !Text.isBlank c && !(['(', ')', ','].contains c) &&
        (c != '/' || symbol.written.toList.tail.isEmpty)) = true := by
    decide
  have hat := symbolAt?_append (fun c hc => (hr c hc).1) _ hm
  obtain ⟨c, hhead, hf⟩ := (Option.any_eq_true ..).mp (firsts _ hm)
  obtain ⟨others, hw⟩ := List.head?_eq_some_iff.mp hhead
  rw [hw] at hf
  simp only [hw, List.cons_append] at hat
  simp only [List.tail_cons, Bool.and_eq_true, Bool.not_eq_true', Bool.or_eq_true, bne_iff_ne,
    List.isEmpty_iff] at hf
  obtain ⟨⟨hb, hc⟩, hcomment⟩ := hf
  have hc : c ∉ ['(', ')', ','] := by simpa using hc
  have hd : (c :: (others ++ rest)).drop s.length = rest := by
    rw [← String.length_toList, hw, ← List.cons_append, List.drop_left]
  have hread : read classify column c (others ++ rest) =
      .ok (operator s, ⟨column + s.length, rest⟩) := by
    rw [read_symbol hc hat]
    simp only [Cursor.advance, hd]
  have hchars : s.toList = c :: others := hw
  rw [hchars]
  refine ⟨_, next?_of_read hb (hcomment.imp_right fun ho hstar => ?_) hread⟩
  rw [ho] at hstar
  exact (hr _ hstar).2 rfl

/-! ## Numerals -/

theorem isNumeral_of_digits {digits : List Char} (h : ∀ c ∈ digits, c.isDigit = true)
    (hne : digits ≠ []) (hr : spanNumeral false rest = (rest, [])) :
    IsNumeral (digits ++ rest) := by
  obtain ⟨c, others, rfl⟩ := List.exists_cons_of_ne_nil hne
  refine ⟨c, others ++ rest, rfl, h c List.mem_cons_self, ?_⟩
  rw [spanNumeral_digits fun d hd => h d (List.mem_cons_of_mem _ hd), hr]

theorem spanNumeral_fraction {digits : List Char} (h : ∀ c ∈ digits, c.isDigit = true) :
    spanNumeral false ('.' :: digits) = ('.' :: digits, []) := by
  have hs : spanNumeral true digits = (digits, []) := by
    rw [← List.append_nil digits, spanNumeral_digits h]
    rfl
  simp [spanNumeral, hs]

theorem isNumeral_positional {digits : List Char} {exponent : Int}
    (h : ∀ c ∈ digits, c.isDigit = true) (hne : digits ≠ []) :
    IsNumeral (Double.positional digits exponent) := by
  have hz : ∀ n, ∀ c ∈ List.replicate n '0', c.isDigit = true := by
    intro n c hc
    rw [List.eq_of_mem_replicate hc]
    rfl
  have hlen := List.length_pos_iff.mpr hne
  unfold Double.positional
  simp only
  split
  · have hall : ∀ c ∈ digits ++ List.replicate exponent.toNat '0', c.isDigit = true :=
      fun c hc => (List.mem_append.mp hc).elim (h c) (hz _ c)
    rw [← List.append_nil (digits ++ _)]
    exact isNumeral_of_digits hall (by simp [hne]) rfl
  split
  · refine isNumeral_of_digits (fun c hc => h c (List.mem_of_mem_take hc)) ?_
      (spanNumeral_fraction fun c hc => h c (List.mem_of_mem_drop hc))
    rw [← List.length_pos_iff, List.length_take]
    omega
  · have hall : ∀ c ∈ List.replicate ((-exponent).toNat - digits.length) '0' ++ digits,
        c.isDigit = true :=
      fun c hc => (List.mem_append.mp hc).elim (hz _ c) (h c)
    exact ⟨'0', _, rfl, rfl, spanNumeral_fraction hall⟩

/-- The plain text of a double without a sign is a numeral. -/
theorem isNumeral_plain {x : Float} (hx : Double.IsUnsigned x) (hi : x.isInf = false) :
    IsNumeral (Double.plain x).toList := by
  have hd : ∀ n, ∀ c ∈ Nat.toDigits 10 n, c.isDigit = true :=
    fun n c => Nat.isDigit_of_mem_toDigits (by decide) (by decide)
  simp only [Double.plain, Double.writeWith, hx.1, hx.2, hi, Bool.false_eq_true, if_false,
    String.toList_ofList]
  exact isNumeral_positional (hd _) Nat.toDigits_ne_nil

end Lexeme

/-! ## Lexemes of a vocabulary -/

namespace Vocabulary

variable {H : Type} {v : Vocabulary H} {l : Lexeme} {ls : List Lexeme} {rest : List Char}

/-- What is found again where it is spelled. -/
def Spells (v : Vocabulary H) (l : Lexeme) : Prop :=
  v.Knows l ∧ match l with
    | .number x => x.isInf = false ∧ Lexeme.numeralValue (Double.plain x).toList = x
    | .constant _ => False
    | _ => True

/-- An operator is found again where it is spelled. -/
theorem scans_operator {s : String} (hl : v.Knows (.operator s))
    (hr : ∀ c ∈ rest.head?, (Lexeme.operator s).endsBefore c = true) {rest' : List Char}
    (hs : Lexeme.Scans v.classify rest ls rest') :
    Lexeme.Scans v.classify ((Lexeme.operator s).spelling ++ rest) (.operator s :: ls) rest' := by
  simp only [Lexeme.endsBefore] at hr
  rcases hl.operator_cases with ⟨hsymbol, hword, hletter⟩ | ⟨hword, hclass⟩
  · have hspell : (Lexeme.operator s).spelling = s.toList := by simp [Lexeme.spelling, hletter]
    rw [hspell]
    exact .next (Lexeme.next?_symbol hsymbol (by simpa [hletter, hword] using hr)) hs
  · have hw := isWord_of_isIdentifier hword
    cases hletter : Text.hasLetter s with
    | true =>
      have hspell : (Lexeme.operator s).spelling ++ rest = ' ' :: (s.toList ++ ' ' :: rest) := by
        simp [Lexeme.spelling, hletter]
      have hblank : ∀ c ∈ (' ' :: rest).head?, continuesWord c = false := by
        intro c hc
        cases hc
        decide
      rw [hspell]
      exact .blank (.next (Lexeme.next?_word hw hclass hblank) (.blank hs))
    | false =>
      have hspell : (Lexeme.operator s).spelling = s.toList := by simp [Lexeme.spelling, hletter]
      rw [hspell]
      exact .next (Lexeme.next?_word hw hclass (by simpa [hletter, hword] using hr)) hs

/-- A lexeme is found again where it is spelled. -/
theorem scans_spelling (hl : v.Spells l) (hr : ∀ c ∈ rest.head?, l.endsBefore c = true)
    {rest' : List Char} (hs : Lexeme.Scans v.classify rest ls rest') :
    Lexeme.Scans v.classify (l.spelling ++ rest) (l :: ls) rest' := by
  cases l with
  | operator s => exact scans_operator hl.1 hr hs
  | number x =>
    obtain ⟨hx, hi, hv⟩ := hl
    exact .next (Lexeme.next?_numeral (Lexeme.isNumeral_plain hx hi) hv
      (by simpa [Lexeme.endsBefore] using hr)) hs
  | text s => exact .next (fun column => ⟨_, Lexeme.next?_text s column⟩) hs
  | constant x => exact absurd hl.2 id
  | namedUnary name =>
    exact .next (Lexeme.next?_word (isWord_of_isIdentifier hl.1.1) hl.1.2
      (by simpa [Lexeme.endsBefore] using hr)) hs
  | identifier name =>
    exact .next (Lexeme.next?_word hl.1.1 hl.1.2 (by simpa [Lexeme.endsBefore] using hr)) hs
  | openParen | closeParen | comma =>
    exact .next (fun column => ⟨_, Lexeme.next?_of_read (by decide) (.inl (by decide)) rfl⟩) hs

theorem spelling_ne_nil (hl : v.Spells l) : l.spelling ≠ [] := by
  have hne {w : List Char} (hw : Lexeme.IsWord w) : w ≠ [] := by
    obtain ⟨c, taken, rfl, -⟩ := hw
    exact List.cons_ne_nil _ _
  cases l with
  | operator s =>
    simp only [Lexeme.spelling]
    split
    · exact List.cons_ne_nil _ _
    · have symbols : ∀ symbol ∈ operatorSymbols, symbol.name.toList ≠ [] := by decide
      rcases hl.1 with hs | hs
      · exact Lexeme.of_isOperatorSymbol (p := fun s => s.toList ≠ []) hs symbols
      · exact hne (isWord_of_isIdentifier hs.1)
  | number x =>
    obtain ⟨c, taken, hs, -⟩ := Lexeme.isNumeral_plain hl.1 hl.2.1
    simp [Lexeme.spelling, hs]
  | text s => simp [Lexeme.spelling, Text.Quoted.quote]
  | constant x => exact absurd hl.2 id
  | namedUnary name => exact hne (isWord_of_isIdentifier hl.1.1)
  | identifier name => exact hne hl.1.1
  | openParen | closeParen | comma => exact List.cons_ne_nil _ _

/-- A lexeme that is apart from the next one ends where the others begin. -/
theorem endsBefore_of_apart (hl : ∀ l' ∈ ls, v.Spells l') (h : ∀ l' ∈ ls.head?, l.Apart l') :
    ∀ c ∈ (ls.flatMap Lexeme.spelling).head?, l.endsBefore c = true := by
  cases ls with
  | nil => simp
  | cons l' ls =>
    obtain ⟨c, others, hs⟩ :=
      List.exists_cons_of_ne_nil (spelling_ne_nil (hl l' List.mem_cons_self))
    intro c' hc'
    refine h l' rfl c' ?_
    rw [List.flatMap_cons, hs] at hc'
    rwa [hs]

/-- **Lexemes are found again in their spellings**, if each ends where the next
one begins. -/
theorem scans_spellings (hl : ∀ l ∈ ls, v.Spells l) (hc : ls.IsChain Lexeme.Apart) :
    Lexeme.Scans v.classify (ls.flatMap Lexeme.spelling) ls [] := by
  induction ls with
  | nil => exact .done
  | cons l ls ih =>
    rw [List.isChain_cons] at hc
    have hls : ∀ l' ∈ ls, v.Spells l' := fun l' h => hl l' (List.mem_cons_of_mem _ h)
    rw [List.flatMap_cons]
    exact scans_spelling (hl l List.mem_cons_self) (endsBefore_of_apart hls hc.1) (ih hls hc.2)

end Vocabulary

end PanelCalc
