import Mathlib.Data.List.Find
import PanelCalc.Proofs.Lexeme.Columns
import PanelCalc.Proofs.Lexeme.Trivia

/-! # One character of lookahead

Where a lexeme ends is settled by its own characters and the one that comes after
them. So it is read again wherever its characters stand, if the same character
comes next or one that goes on with no lexeme, as those do that blanks and
comments begin with. Nor does it matter which word comes next, where one does. -/
namespace PanelCalc

open Text (Cursor)

/-- Characters that go on with no lexeme: a blank or a slash comes first, or there are none. -/
def Text.Parted (rest : List Char) : Prop := ∀ c ∈ rest.head?, isBlank c = true ∨ c = '/'

/-- Whatever lexeme ends before some characters ends before the others, too. -/
def Text.EndsAs (rest rest' : List Char) : Prop :=
  rest'.head? = rest.head? ∨ Parted rest' ∨
    (∃ c ∈ rest.head?, opensWord c = true) ∧ ∀ c ∈ rest'.head?, opensWord c = true

open Text (EndsAs Parted opensWord)

variable {column : Nat} {c : Char} {chars taken rest rest' spelled : List Char}

theorem Lexeme.Trivia.parted (h : Lexeme.Trivia rest) : Parted rest := fun _ => h.head

/-- What does not go on with a kind of lexeme does not where it is replaced. -/
theorem Text.EndsAs.of_kind (h : EndsAs rest rest') (kind : Char → Bool)
    (hk : ∀ c, isBlank c = true ∨ c = '/' → kind c = false)
    (hw : ∀ c d, opensWord c = true → opensWord d = true → kind c = kind d)
    (hr : ∀ c ∈ rest.head?, kind c = false) : ∀ c ∈ rest'.head?, kind c = false := by
  rcases h with hsame | hparted | ⟨⟨d, hd, hopens⟩, hopens'⟩
  · rwa [hsame]
  · exact fun c hc => hk c (hparted c hc)
  · exact fun c hc => (hw c d (hopens' c hc) hopens).trans (hr d hd)

theorem Text.EndsAs.not_continuesWord (h : EndsAs rest rest')
    (hr : ∀ c ∈ rest.head?, continuesWord c = false) : ∀ c ∈ rest'.head?, continuesWord c = false := by
  refine h.of_kind _ (fun c hc => ?_) (fun c d hc hd => ?_) hr
  · rcases hc with hb | rfl
    · exact eq_false_of_isBlank not_isBlank_of_continuesWord hb
    · decide
  · rw [continuesWord_of_opensWord hc, continuesWord_of_opensWord hd]

theorem Text.EndsAs.no_comment (h : EndsAs rest rest') (hc : (taken ++ rest).head? ≠ some '*') :
    (taken ++ rest').head? ≠ some '*' := by
  cases taken with
  | cons d taken => exact hc
  | nil =>
    rcases h with hsame | hparted | ⟨-, hopens⟩
    · rwa [List.nil_append, hsame]
    · intro hstar
      rcases hparted '*' hstar with hb | hs
      · exact absurd hb (by decide)
      · cases hs
    · exact fun hstar => absurd (hopens '*' hstar) (by decide)

/-! ## Quoted text -/

namespace Text.Quoted

/-- The characters of quoted text up to its end are enough to read it. -/
theorem exists_decoded {meant : List Char} {next : Cursor}
    (h : decode column chars = .ok (meant, next)) : ∃ taken, chars = taken ++ next.rest ∧
      ∀ column' rest', decode column' (taken ++ rest') =
        .ok (meant, ⟨column' + taken.length, rest'⟩) := by
  fun_induction decode column chars generalizing meant next with
  | case2 column rest =>
    cases h
    exact ⟨[mark], rfl, fun column' rest' => decode_mark⟩
  | case4 column p q r s rest c hc _ ih =>
    obtain ⟨others, hd, rfl⟩ := prepend_eq_ok.mp h
    obtain ⟨taken, rfl, ht⟩ := ih hd
    refine ⟨'\\' :: 'u' :: p :: q :: r :: s :: taken, rfl, fun column' rest' => ?_⟩
    simp only [List.cons_append, decode_hex hc, ht, List.length_cons, prepend_eq_ok]
    exact ⟨others, by congr 3; omega, rfl⟩
  | case6 column letter rest _ c hc _ ih =>
    obtain ⟨others, hd, rfl⟩ := prepend_eq_ok.mp h
    obtain ⟨taken, rfl, ht⟩ := ih hd
    refine ⟨'\\' :: letter :: taken, rfl, fun column' rest' => ?_⟩
    simp only [List.cons_append, decode_escape hc, ht, List.length_cons, prepend_eq_ok]
    exact ⟨others, by congr 3; omega, rfl⟩
  | case8 column c rest hm hb ih =>
    obtain ⟨others, hd, rfl⟩ := prepend_eq_ok.mp h
    obtain ⟨taken, rfl, ht⟩ := ih hd
    refine ⟨c :: taken, rfl, fun column' rest' => ?_⟩
    simp only [List.cons_append, decode_cons_of_ne hm hb, ht, List.length_cons, prepend_eq_ok]
    exact ⟨others, by congr 3; omega, rfl⟩
  | _ => cases h

end Text.Quoted

namespace Lexeme

variable {classify : String → Lexeme} {cursor next : Cursor} {l : Lexeme} {located : Located}

/-! ## Numerals, words and symbols -/

theorem spanNumeral_endsAs {seenPoint : Bool} (h : EndsAs rest rest')
    (hs : spanNumeral seenPoint (taken ++ rest) = (taken, rest)) :
    spanNumeral seenPoint (taken ++ rest') = (taken, rest') := by
  induction taken generalizing seenPoint with
  | nil =>
    have hword : ∀ c, opensWord c = true → (c.isDigit || (c == '.' && !seenPoint)) = false := by
      intro c hc
      have hd : c.isDigit = false :=
        Bool.eq_false_iff.mpr fun hd => by simp [Text.not_opensWord_of_isDigit hd] at hc
      have hp : (c == '.') = false := by simpa using Text.ne_of_kind opensWord hc (by decide)
      simp [hd, hp]
    have hnext : ∀ c ∈ rest'.head?, (c.isDigit || (c == '.' && !seenPoint)) = false := by
      refine h.of_kind _ (fun c hc => ?_) (fun c d hc hd => (hword c hc).trans (hword d hd).symm)
        (fun c hc => ?_)
      · rcases hc with hb | rfl
        · have hp : (c == '.') = false := by simpa using Text.ne_of_kind Text.isBlank hb (by decide)
          simp [Text.eq_false_of_isBlank Text.not_isBlank_of_isDigit hb, hp]
        · rfl
      · obtain ⟨others, rfl⟩ := List.head?_eq_some_iff.mp hc
        rw [List.nil_append, spanNumeral] at hs
        split at hs
        · cases hs
        · rename_i hc
          simpa using hc
    cases rest' with
    | nil => rfl
    | cons c others => rw [List.nil_append, spanNumeral, if_neg (by simp [hnext c rfl])]
  | cons c taken ih =>
    rw [List.cons_append, spanNumeral] at hs ⊢
    split at hs
    · rename_i hc
      have hrest : spanNumeral (seenPoint || c == '.') (taken ++ rest) = (taken, rest) := by
        simpa [Prod.ext_iff] using hs
      rw [if_pos hc, ih hrest]
    · cases hs

/-- A word has ended before a character that does not go on with it. -/
theorem not_continuesWord_of_spanName {quoted : Bool}
    (h : spanName quoted chars = (taken, false, rest)) :
    ∀ c ∈ rest.head?, Text.continuesWord c = false := by
  fun_induction spanName quoted chars generalizing taken with
  | case1 =>
    cases h
    simp
  | case2 quoted c chars hc taken' ended' rest' heq ih =>
    cases h
    exact ih heq
  | case3 quoted c chars hc =>
    cases h
    simpa [Text.continuesWord] using hc

theorem spanName_endsAs {quoted : Bool} (h : EndsAs rest rest')
    (hs : spanName quoted (taken ++ rest) = (taken, false, rest)) :
    spanName quoted (taken ++ rest') = (taken, false, rest') := by
  induction taken generalizing quoted with
  | nil =>
    have hquoted : quoted = false := by
      cases rest with
      | nil => cases hs; rfl
      | cons c others =>
        rw [List.nil_append, spanName] at hs
        split at hs
        · cases hs
        · cases hs; rfl
    subst hquoted
    exact spanName_of_not_continuesWord (h.not_continuesWord (not_continuesWord_of_spanName hs))
  | cons c taken ih =>
    rw [List.cons_append, spanName] at hs ⊢
    split at hs
    · rename_i hc
      have hrest : spanName (if c = '"' then !quoted else quoted) (taken ++ rest) =
          (taken, false, rest) := by
        simpa [Prod.ext_iff] using hs
      rw [if_pos hc, ih hrest]
    · cases hs

/-- No symbol has more than two characters. -/
theorem symbolAt?_congr (h : rest'.head? = rest.head?) :
    symbolAt? (c :: rest') = symbolAt? (c :: rest) := by
  have short : ∀ symbol ∈ operatorSymbols, symbol.written.toList.length ≤ 2 := by decide
  refine List.find?_congr fun symbol hs => ?_
  have hlen := short symbol hs
  generalize symbol.written.toList = written at hlen ⊢
  rcases written with _ | ⟨a, _ | ⟨b, _ | ⟨d, others⟩⟩⟩
  · rfl
  · rfl
  · cases rest <;> cases rest' <;> simp_all [List.isPrefixOf_cons_cons]
  · simp at hlen

theorem symbolAt?_endsAs {symbol : OperatorSymbol} (h : EndsAs rest rest')
    (hs : symbolAt? (symbol.written.toList ++ rest) = some symbol) :
    symbolAt? (symbol.written.toList ++ rest') = some symbol := by
  rcases h with hsame | hothers
  · cases hw : symbol.written.toList with
    | nil =>
      have := symbolAt?_length_pos hs
      rw [← String.length_toList, hw] at this
      cases this
    | cons d others =>
      rw [hw, List.cons_append] at hs
      rw [List.cons_append, ← hs]
      exact symbolAt?_congr (by cases others <;> simp [hsame])
  · refine symbolAt?_append (fun c hc => ?_) symbol (List.mem_of_find?_eq_some hs)
    rcases hothers with hparted | ⟨-, hopens⟩
    · rcases hparted c hc with hb | rfl
      · exact Text.ne_of_kind Text.isBlank hb (by decide)
      · decide
    · exact Text.ne_of_kind opensWord (hopens c hc) (by decide)

/-! ## Lexemes -/

/-- How a lexeme is read from characters, up to a rest: from just as many characters at any column,
as long as it ends before what comes after them. -/
def ReadAs (classify : String → Lexeme) (c : Char) (taken rest : List Char) (l : Lexeme) : Prop :=
  ∀ column rest', EndsAs rest rest' → read classify column c (taken ++ rest') =
    .ok (l, ⟨column + 1 + taken.length, rest'⟩)

theorem exists_readNumber (h : readNumber column c rest = .ok (l, next)) :
    ∃ taken, rest = taken ++ next.rest ∧ ∀ column rest', EndsAs next.rest rest' →
      readNumber column c (taken ++ rest') = .ok (l, ⟨column + 1 + taken.length, rest'⟩) := by
  have happ := spanNumeral_append_span (c == '.') rest
  rcases hspan : spanNumeral (c == '.') rest with ⟨taken, after⟩
  simp only [readNumber, hspan] at h happ
  subst happ
  split at h
  · rename_i hdigit
    cases h
    refine ⟨taken, rfl, fun column rest' hr => ?_⟩
    simp only [readNumber, spanNumeral_endsAs hr hspan, if_pos hdigit]
  · cases h

theorem exists_readWord (h : readWord classify column c rest = .ok (l, next)) :
    ∃ taken, rest = taken ++ next.rest ∧ ∀ column rest', EndsAs next.rest rest' →
      readWord classify column c (taken ++ rest') =
        .ok (l, ⟨column + 1 + taken.length, rest'⟩) := by
  have happ := spanName_append_span (c == '"') rest
  rcases hspan : spanName (c == '"') rest with ⟨taken, quoted, after⟩
  simp only [readWord, hspan] at h happ
  subst happ
  split at h
  · cases h
  · rename_i hquoted
    rw [Bool.not_eq_true] at hquoted
    subst hquoted
    cases h
    refine ⟨taken, rfl, fun column rest' hr => ?_⟩
    simp only [readWord, spanName_endsAs hr hspan]
    rfl

theorem exists_readText (h : readText column rest = .ok (l, next)) :
    ∃ taken, rest = taken ++ next.rest ∧ ∀ column rest', readText column (taken ++ rest') =
      .ok (l, ⟨column + 1 + taken.length, rest'⟩) := by
  unfold readText at h
  split at h
  · rename_i hd
    cases h
    obtain ⟨taken, rfl, ht⟩ := Text.Quoted.exists_decoded hd
    refine ⟨taken, rfl, fun column rest' => ?_⟩
    simp only [readText, ht]
  all_goals cases h

/-- A symbol is found where it is written. -/
theorem exists_written {symbol : OperatorSymbol} (h : symbolAt? (c :: rest) = some symbol) :
    ∃ taken after, symbol.written.toList = c :: taken ∧ rest = taken ++ after := by
  have hp := List.find?_some h
  obtain ⟨after, ha⟩ := List.isPrefixOf_iff_prefix.mp hp
  cases hw : symbol.written.toList with
  | nil =>
    have := symbolAt?_length_pos h
    rw [← String.length_toList, hw] at this
    cases this
  | cons d taken =>
    rw [hw] at ha
    cases ha
    exact ⟨taken, after, rfl, rfl⟩

/-- An operator symbol is read from its characters. -/
theorem readAs_symbol {symbol : OperatorSymbol} (hc : c ∉ ['(', ')', ','])
    (hw : symbol.written.toList = c :: taken)
    (h : symbolAt? (c :: (taken ++ rest)) = some symbol) :
    ReadAs classify c taken rest (.operator symbol.name) := by
  intro column rest' hr
  have hlength : symbol.written.length = taken.length + 1 := by
    rw [← String.length_toList, hw, List.length_cons]
  rw [← List.cons_append, ← hw] at h
  have hagain := symbolAt?_endsAs hr h
  rw [hw, List.cons_append] at hagain
  rw [read_symbol hc hagain]
  simp only [Cursor.advance, hlength, List.drop_succ_cons, List.drop_left, Nat.add_assoc,
    Nat.add_comm 1]

theorem exists_readAs (h : read classify column c rest = .ok (l, next)) :
    ∃ taken, rest = taken ++ next.rest ∧ ReadAs classify c taken next.rest l := by
  cases read_cases h with
  | openParen hc =>
    exact ⟨[], rfl, fun _ _ _ => by rw [hc]; rfl⟩
  | closeParen hc =>
    exact ⟨[], rfl, fun _ _ _ => by rw [hc]; rfl⟩
  | comma hc =>
    exact ⟨[], rfl, fun _ _ _ => by rw [hc]; rfl⟩
  | @symbol symbol hc hs =>
    obtain ⟨taken, after, hw, rfl⟩ := exists_written hs
    have hafter : (Cursor.advance ⟨column, c :: (taken ++ after)⟩ symbol.written.length).rest =
        after := by
      simp [Cursor.advance, ← String.length_toList, hw]
    rw [hafter]
    exact ⟨taken, rfl, readAs_symbol hc hw hs⟩
  | number hc h =>
    obtain ⟨taken, hrest, ht⟩ := exists_readNumber h
    exact ⟨taken, hrest, fun column rest' hr => by
      rw [read_of_opensNumeral hc, ht column rest' hr]⟩
  | text hc h =>
    obtain ⟨taken, hrest, ht⟩ := exists_readText h
    exact ⟨taken, hrest, fun column rest' _ => by rw [hc, read_mark, ht column rest']⟩
  | word hc h =>
    obtain ⟨taken, hrest, ht⟩ := exists_readWord h
    exact ⟨taken, hrest, fun column rest' hr => by
      rw [read_of_opensWord hc, ht column rest' hr]⟩

/-- Characters that are read as a lexeme wherever they stand before what ends it. -/
def Spelled (classify : String → Lexeme) (spelled rest : List Char) (l : Lexeme) : Prop :=
  ∀ column rest', EndsAs rest rest' → next? classify ⟨column, spelled ++ rest'⟩ =
    .ok (some (⟨l, column⟩, ⟨column + spelled.length, rest'⟩))

/-- **Scanning a lexeme** skips blanks and comments, and then takes characters that are read as
this lexeme wherever they stand. -/
theorem exists_spelled (h : next? classify cursor = .ok (some (located, next))) :
    ∃ gap spelled, cursor.rest = gap ++ (spelled ++ next.rest) ∧ Trivia gap ∧ spelled ≠ [] ∧
      located.column = cursor.column + gap.length ∧
      next.column = located.column + spelled.length ∧
      Spelled classify spelled next.rest located.lexeme := by
  obtain ⟨c, rest, hskip, hread⟩ := next?_some h
  obtain ⟨gap, hgap, ht, hcolumn⟩ := exists_trivia hskip
  obtain ⟨hb, hc⟩ := begins_of_skipTrivia hskip
  obtain ⟨taken, hrest, hreadAs⟩ := exists_readAs hread
  have hend := hreadAs located.column next.rest (.inl rfl)
  rw [← hrest, hread] at hend
  refine ⟨gap, c :: taken, ?_, ht, List.cons_ne_nil _ _, hcolumn, ?_, fun column rest' hr => ?_⟩
  · rw [hgap, hrest, List.cons_append]
  · have := congrArg (·.2.column) (Except.ok.inj hend)
    simp only at this
    rw [this, List.length_cons]
    omega
  · have hc' : c ≠ '/' ∨ (taken ++ rest').head? ≠ some '*' :=
      hc.imp_right fun hstar => hr.no_comment (hrest ▸ hstar)
    rw [List.cons_append, next?_of_read hb hc' (hreadAs column rest' hr), List.length_cons,
      Nat.add_assoc, Nat.add_comm 1]

end Lexeme

end PanelCalc
