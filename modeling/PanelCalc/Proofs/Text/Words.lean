import PanelCalc.Lexeme.Scan

/-! # Characters that open and continue words

Which lexeme begins is settled by one character. The characters that may open a
word, the digits, and the first characters of operator symbols are different
from each other, and none of them is blank. -/
namespace PanelCalc.Text

/-- Whether a word may begin with the character. -/
def opensWord (c : Char) : Bool := isIdentifierStart c || c == '"'

/-- Whether a word goes on with the character. -/
def continuesWord (c : Char) : Bool := c == '"' || isIdentifierPart c || c == '.'

variable {c : Char}

theorem of_isDigit (p : Char → Prop) (h : c.isDigit = true)
    (hp : ∀ n < 58, 48 ≤ n → p (Char.ofNat n)) : p c := by
  have hd : 48 ≤ c.toNat ∧ c.toNat ≤ 57 := by
    simp only [Char.isDigit, Bool.and_eq_true, decide_eq_true_eq] at h
    exact h
  have := hp c.toNat (by omega) hd.1
  rwa [Char.ofNat_toNat] at this

theorem not_opensWord_of_isDigit (h : c.isDigit = true) : opensWord c = false :=
  of_isDigit (opensWord · = false) h (by decide)

theorem not_isBlank_of_isDigit (h : c.isDigit = true) : isBlank c = false :=
  of_isDigit (isBlank · = false) h (by decide)

theorem continuesWord_of_opensWord (h : opensWord c = true) : continuesWord c = true := by
  simp only [opensWord, isIdentifierStart, Bool.or_eq_true] at h
  simp only [continuesWord, isIdentifierPart, isAlphanumeric, Bool.or_eq_true]
  rcases h with (h | h) | h
  · exact .inl (.inr (.inl (.inl h)))
  · exact .inl (.inr (.inr h))
  · exact .inl (.inl h)

/-- No range of blank characters is longer than twelve. -/
theorem not_isBlank_of_continuesWord (h : continuesWord c = true) : isBlank c = false := by
  have blanks : ∀ range ∈ blankRanges, range.2 < range.1 + 12 ∧
      ∀ k < 12, range.1 + k ≤ range.2 → continuesWord (Char.ofNat (range.1 + k)) = false := by
    decide +kernel
  rw [Bool.eq_false_iff]
  intro hb
  obtain ⟨range, hr, hc⟩ := List.any_eq_true.mp hb
  simp only [Bool.and_eq_true, decide_eq_true_eq] at hc
  obtain ⟨hlen, hk⟩ := blanks range hr
  have := hk (c.toNat - range.1) (by omega) (by omega)
  rw [Nat.add_sub_cancel' hc.1, Char.ofNat_toNat, h] at this
  cases this

theorem not_isBlank_of_opensWord (h : opensWord c = true) : isBlank c = false :=
  not_isBlank_of_continuesWord (continuesWord_of_opensWord h)

/-- Blanks are of no kind that has none of them. -/
theorem eq_false_of_isBlank {kind : Char → Bool} (hk : kind c = true → isBlank c = false)
    (hb : isBlank c = true) : kind c = false := by
  rw [Bool.eq_false_iff]
  intro h
  rw [hk h] at hb
  cases hb

/-- A character of a kind is none that is not of the kind. -/
theorem ne_of_kind (kind : Char → Bool) {d : Char} (h : kind c = true) (hd : kind d = false) :
    c ≠ d := by
  intro heq
  rw [heq, hd] at h
  cases h

end PanelCalc.Text

namespace PanelCalc.Lexeme

open Text

variable {c : Char} {rest taken chars : List Char}

/-! ## Operator symbols -/

/-- No symbol is found at a character of a kind that no symbol begins with. -/
theorem symbolAt?_eq_none (kind : Char → Bool) (hc : kind c = true)
    (h : ∀ symbol ∈ operatorSymbols, symbol.written.toList.head?.any (!kind ·) = true) :
    symbolAt? (c :: rest) = none := by
  refine List.find?_eq_none.mpr ?_
  intro symbol hs hp
  obtain ⟨d, hhead, hd⟩ := (Option.any_eq_true ..).mp (h symbol hs)
  obtain ⟨others, hw⟩ := List.head?_eq_some_iff.mp hhead
  simp only [hw, List.isPrefixOf_cons_cons, Bool.and_eq_true, beq_iff_eq] at hp
  rw [hp.1, hc] at hd
  cases hd

/-! ## Words and numerals -/

/-- A word: outside of quotations it has no other characters than words may have. -/
def IsWord (chars : List Char) : Prop :=
  ∃ c taken, chars = c :: taken ∧ opensWord c = true ∧
    spanName (c == '"') taken = (taken, false, [])

/-- Digits, one point at most, and a digit at the beginning. -/
def IsNumeral (chars : List Char) : Prop :=
  ∃ c taken, chars = c :: taken ∧ c.isDigit = true ∧ spanNumeral false taken = (taken, [])

/-- What has been taken of a word is a word, whatever comes after it. -/
theorem spanName_taken {quoted ended : Bool} (h : spanName quoted chars = (taken, ended, rest)) :
    spanName quoted taken = (taken, ended, []) := by
  fun_induction spanName quoted chars generalizing taken with
  | case1 => simp_all [spanName]
  | case2 quoted c chars hc taken' ended' rest' heq ih =>
    cases h
    rw [spanName, if_pos hc, ih heq]
  | case3 quoted c chars hc =>
    cases h
    rfl

/-- A word goes on until a quotation is closed and after it. -/
theorem spanName_append {quoted : Bool} (h : spanName quoted taken = (taken, false, [])) :
    spanName quoted (taken ++ rest) =
      (taken ++ (spanName false rest).1, (spanName false rest).2) := by
  induction taken generalizing quoted with
  | nil =>
    cases h
    rfl
  | cons c taken ih =>
    rw [spanName] at h
    split at h
    · rename_i hc
      have hs : spanName (if c = '"' then !quoted else quoted) taken = (taken, false, []) := by
        simpa [Prod.ext_iff] using h
      rw [List.cons_append, spanName, if_pos hc, ih hs]
      rfl
    · cases h

theorem spanName_of_not_continuesWord (h : ∀ c ∈ rest.head?, continuesWord c = false) :
    spanName false rest = ([], false, rest) := by
  cases rest with
  | nil => rfl
  | cons c rest =>
    have := h c rfl
    simp only [continuesWord] at this
    simp [spanName, this]

/-- A word that has ended outside of quotations ends there before what comes next, too. -/
theorem spanName_before {quoted : Bool} (h : spanName quoted chars = (taken, false, rest))
    {next : List Char} (hn : ∀ c ∈ next.head?, continuesWord c = false) :
    spanName quoted (chars ++ next) = (taken, false, rest ++ next) := by
  fun_induction spanName quoted chars generalizing taken with
  | case1 quoted =>
    cases h
    exact spanName_of_not_continuesWord hn
  | case2 quoted c chars hc taken' ended' rest' heq ih =>
    cases h
    rw [List.cons_append, spanName, if_pos hc, ih heq]
  | case3 quoted c chars hc =>
    cases h
    rw [List.cons_append, spanName, if_neg hc]

/-- A quotation goes on up to a quotation mark. -/
theorem spanName_quotation {quoted : Bool} (h : spanName quoted chars = (taken, true, rest))
    {next : List Char} (hn : '"' ∉ next) : (spanName quoted (chars ++ next)).2.1 = true := by
  fun_induction spanName quoted chars generalizing taken with
  | case1 quoted =>
    cases h
    induction next with
    | nil => rfl
    | cons c next ih =>
      rw [List.mem_cons, not_or] at hn
      simp only [List.nil_append] at ih ⊢
      rw [spanName, if_pos (by simp), if_neg (Ne.symm hn.1)]
      exact ih hn.2
  | case2 quoted c chars hc taken' ended' rest' heq ih =>
    cases h
    rw [List.cons_append, spanName, if_pos hc]
    exact ih heq
  | case3 quoted c chars hc =>
    cases h
    simp at hc

/-- An identifier is taken as a whole. -/
theorem spanName_identifier (h : ∀ c ∈ chars, isIdentifierPart c = true) :
    spanName false chars = (chars, false, []) := by
  induction chars with
  | nil => rfl
  | cons c chars ih =>
    have hc := h c List.mem_cons_self
    have hq : c ≠ '"' := ne_of_kind isIdentifierPart hc (by decide)
    have hs := ih fun d hd => h d (List.mem_cons_of_mem _ hd)
    simp [spanName, hc, hq, hs]

/-- A numeral ends before what comes next if this is neither a digit nor a point. -/
theorem spanNumeral_before {seenPoint : Bool} (hd : ∀ c ∈ rest.head?, c.isDigit = false ∧ c ≠ '.') :
    spanNumeral seenPoint (chars ++ rest) =
      ((spanNumeral seenPoint chars).1, (spanNumeral seenPoint chars).2 ++ rest) := by
  induction chars generalizing seenPoint with
  | nil =>
    cases rest with
    | nil => rfl
    | cons c rest =>
      have := hd c rfl
      simp [spanNumeral, this]
  | cons c chars ih =>
    rw [List.cons_append, spanNumeral, spanNumeral, ih]
    split <;> rfl

theorem spanNumeral_append {seenPoint : Bool} (h : spanNumeral seenPoint taken = (taken, []))
    (hd : ∀ c ∈ rest.head?, c.isDigit = false ∧ c ≠ '.') :
    spanNumeral seenPoint (taken ++ rest) = (taken, rest) := by
  rw [spanNumeral_before hd, h]
  rfl

theorem spanNumeral_digits {digits : List Char} (h : ∀ c ∈ digits, c.isDigit = true)
    {seenPoint : Bool} : spanNumeral seenPoint (digits ++ rest) =
      (digits ++ (spanNumeral seenPoint rest).1, (spanNumeral seenPoint rest).2) := by
  induction digits with
  | nil => rfl
  | cons d digits ih =>
    have hd := h d List.mem_cons_self
    have hp : (d == '.') = false := by simpa using ne_of_kind Char.isDigit hd (by decide)
    have hs := ih fun c hc => h c (List.mem_cons_of_mem _ hc)
    simp [spanNumeral, hd, hp, hs]

end PanelCalc.Lexeme
