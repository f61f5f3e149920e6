import PanelCalc.Proofs.Lexeme.Lookahead

/-! # Blanks at the end

Blanks behind the characters of a text change nothing of what is scanned in
them. Only an escape sequence that the characters break off goes on with the
blanks: then the blanks are what is wrong with the sequence. -/
namespace PanelCalc

open Text (Cursor)

variable {column : Nat} {c d : Char} {chars rest tail : List Char}

/-- The place with more characters at the end of the text. -/
def Text.Cursor.extend (tail : List Char) (cursor : Cursor) : Cursor :=
  ⟨cursor.column, cursor.rest ++ tail⟩

/-- Characters that are all blank. -/
abbrev Text.Blanks (chars : List Char) : Prop := ∀ c ∈ chars, Text.isBlank c = true

/-- The first character is the same with blanks at the end, if it is none of them. -/
theorem Text.Blanks.head?_append (ht : Text.Blanks tail) (hd : Text.isBlank d = false) :
    (rest ++ tail).head? = some d ↔ rest.head? = some d := by
  cases rest with
  | cons c rest => rfl
  | nil =>
    cases tail with
    | nil => rfl
    | cons c tail =>
      have hc := Text.ne_of_kind Text.isBlank (ht c List.mem_cons_self) hd
      simp [hc]

/-! ## Quoted text -/

namespace Text.Quoted

theorem hexValue?_of_isBlank (hb : isBlank c = true) : hexValue? c = none := by
  have bounds {lo hi : Char} (h : lo ≤ c ∧ c ≤ hi) : lo.toNat ≤ c.toNat ∧ c.toNat ≤ hi.toNat := h
  simp only [isBlank, blankRanges, CharRanges.contains, List.any_cons, List.any_nil,
    Bool.or_eq_true, Bool.and_eq_true, decide_eq_true_eq, Bool.false_eq_true, or_false] at hb
  unfold hexValue?
  rw [if_neg, if_neg, if_neg]
  all_goals
    intro h
    have := bounds h
    simp only [Char.reduceToNat] at this
    omega

theorem ofHexDigits?_of_isBlank {p q r s : Char}
    (hb : ∃ c ∈ [p, q, r, s], isBlank c = true) : ofHexDigits? p q r s = none := by
  obtain ⟨c, hc, hb⟩ := hb
  have hv := hexValue?_of_isBlank hb
  simp only [List.mem_cons, List.not_mem_nil, or_false] at hc
  unfold ofHexDigits?
  rcases hc with rfl | rfl | rfl | rfl
  · simp [hv]
  · cases hexValue? p <;> simp [hv]
  · cases hexValue? p <;> cases hexValue? q <;> simp [hv]
  · cases hexValue? p <;> cases hexValue? q <;> cases hexValue? r <;> simp [hv]

theorem ofEscapeLetter?_of_isBlank (hb : isBlank c = true) : ofEscapeLetter? c = none := by
  unfold ofEscapeLetter?
  repeat' split
  all_goals
    first
    | rfl
    | subst_vars; exact absurd hb (by decide)

/-- What characters after the end of quoted text do to its fault. -/
inductive Fault.Extends (tail : List Char) (start stop : Nat) : Fault → Fault → Prop
  | same (fault : Fault) : Extends tail start stop fault fault
  | backslash {place : Nat} {c : Char} : start ≤ place → place + 1 = stop → tail.head? = some c →
      Extends tail start stop .unterminated (.illegalEscape place [c])
  | escape {place : Nat} {sequence : List Char} : place + 1 + sequence.length = stop →
      sequence.length < 5 → Extends tail start stop (.illegalEscape place sequence)
        (.illegalEscape place ((sequence ++ tail).take 5))

theorem Fault.Extends.mono {start stop start' stop' : Nat} {fault fault' : Fault}
    (h : Fault.Extends tail start stop fault fault') (hs : start' ≤ start) (he : stop = stop') :
    Fault.Extends tail start' stop' fault fault' := by
  subst he
  cases h with
  | same => exact .same _
  | backslash hp hstop hc => exact .backslash (hs.trans hp) hstop hc
  | escape hstop hl => exact .escape hstop hl

/-- Quoted text that has ended has ended, whatever comes after it. -/
theorem decode_append {meant : List Char} {next : Cursor}
    (h : decode column chars = .ok (meant, next)) (tail : List Char) :
    decode column (chars ++ tail) = .ok (meant, next.extend tail) := by
  obtain ⟨taken, rfl, hread⟩ := exists_decoded h
  have hcolumn : next.column = column + taken.length := by
    have hsame := h.symm.trans (hread column next.rest)
    exact congrArg (·.2.column) (Except.ok.inj hsame)
  rw [List.append_assoc, hread, Cursor.extend, hcolumn]

theorem decode_blanks (ht : Blanks tail) : decode column tail = .error .unterminated := by
  induction tail generalizing column with
  | nil => rfl
  | cons c tail ih =>
    obtain ⟨hc, ht⟩ := List.forall_mem_cons.mp ht
    rw [decode_cons_of_ne (ne_of_kind isBlank hc (by decide)) (ne_of_kind isBlank hc (by decide)),
      ih ht]
    rfl

/-- An escape sequence goes on with blanks as far as it can. -/
theorem decode_illegal_append (ht : Blanks tail) (hu : rest.length < 4) :
    decode column ('\\' :: 'u' :: (rest ++ tail)) =
      .error (.illegalEscape column (('u' :: rest ++ tail).take 5)) := by
  by_cases hl : (rest ++ tail).length < 4
  · rw [decode_illegal rfl fun _ => hl, if_pos rfl, List.take_of_length_le]
    · rfl
    · rw [List.cons_append, List.length_cons]
      omega
  obtain ⟨p, q, r, s, others, heq⟩ :
      ∃ p q r s others, rest ++ tail = p :: q :: r :: s :: others := by
    by_contra hno
    exact hl (length_lt_four fun p q r s others h => hno ⟨p, q, r, s, others, h⟩)
  have hblank : ∃ c ∈ [p, q, r, s], isBlank c = true := by
    have hfour : (rest ++ tail).take 4 = [p, q, r, s] := by rw [heq]; rfl
    have hlast : (rest ++ tail)[3]? = some s := by rw [heq]; rfl
    rw [List.getElem?_append_right (by omega)] at hlast
    exact ⟨s, by simp, ht s (List.mem_of_getElem? hlast)⟩
  rw [heq, decode_illegal_hex (ofHexDigits?_of_isBlank hblank), List.cons_append, heq]
  rfl

theorem decode_append_blanks (ht : Blanks tail) {fault : Fault}
    (h : decode column chars = .error fault) : ∃ fault',
    decode column (chars ++ tail) = .error fault' ∧
      Fault.Extends tail column (column + chars.length) fault fault' := by
  fun_induction decode column chars with
  | case1 column =>
    cases h
    exact ⟨_, decode_blanks ht, .same _⟩
  | case2 => cases h
  | case3 column =>
    cases h
    cases tail with
    | nil => exact ⟨_, rfl, .same _⟩
    | cons c tail =>
      have hc := ht c List.mem_cons_self
      have hu : c ≠ 'u' := ne_of_kind isBlank hc (by decide)
      refine ⟨_, decode_illegal (ofEscapeLetter?_of_isBlank hc) fun hl => absurd hl hu, ?_⟩
      rw [if_neg hu]
      exact .backslash le_rfl rfl rfl
  | case4 column p q r s rest c hc _ ih =>
    obtain ⟨fault', hd, he⟩ := ih (prepend_eq_error.mp h)
    refine ⟨fault', (decode_hex hc).trans (prepend_eq_error.mpr hd), he.mono (by omega) ?_⟩
    simp only [List.length_cons]
    omega
  | case5 column p q r s rest hc =>
    cases h
    exact ⟨_, decode_illegal_hex hc, .same _⟩
  | case6 column letter rest _ c hc _ ih =>
    obtain ⟨fault', hd, he⟩ := ih (prepend_eq_error.mp h)
    refine ⟨fault', (decode_escape hc).trans (prepend_eq_error.mpr hd), he.mono (by omega) ?_⟩
    simp only [List.length_cons]
    omega
  | case7 column letter rest hshort hl =>
    cases h
    by_cases hu : letter = 'u'
    · subst hu
      have hfour : rest.length < 4 :=
        length_lt_four fun p q r s others => hshort p q r s others rfl
      refine ⟨_, decode_illegal_append ht hfour, ?_⟩
      rw [if_pos rfl]
      refine .escape ?_ ?_
      all_goals
        simp only [List.length_cons]
        omega
    · refine ⟨_, decode_illegal hl fun hl => absurd hl hu, ?_⟩
      simp only [if_neg hu]
      exact .same _
  | case8 column c rest hm hb ih =>
    obtain ⟨fault', hd, he⟩ := ih (prepend_eq_error.mp h)
    refine ⟨fault', (decode_cons_of_ne hm hb).trans (prepend_eq_error.mpr hd),
      he.mono (by omega) ?_⟩
    simp only [List.length_cons]
    omega

end Text.Quoted

/-! ## Lexemes -/

/-- What characters after the end of a text do to its error. -/
inductive CompileError.Extends (tail : List Char) (stop : Nat) : CompileError → CompileError → Prop
  | same (e : CompileError) : Extends tail stop e e
  | backslash {column place : Nat} {c : Char} : column < place → place + 1 = stop →
      tail.head? = some c → Extends tail stop ⟨column, .lexical .unterminatedString⟩
        ⟨place, .lexical (.illegalEscape [c])⟩
  | escape {place : Nat} {sequence : List Char} : place + 1 + sequence.length = stop →
      sequence.length < 5 → Extends tail stop ⟨place, .lexical (.illegalEscape sequence)⟩
        ⟨place, .lexical (.illegalEscape ((sequence ++ tail).take 5))⟩

/-- The answer with more characters at the end of the text. -/
inductive Extended {α : Type} (tail : List Char) (stop : Nat) (extend : α → α) :
    Except CompileError α → Except CompileError α → Prop
  | ok (x : α) : Extended tail stop extend (.ok x) (.ok (extend x))
  | error {e e' : CompileError} : e.Extends tail stop e' →
      Extended tail stop extend (.error e) (.error e')

namespace Extended

variable {α β : Type} {stop : Nat} {extend : α → α}

theorem same (e : CompileError) : Extended tail stop extend (.error e) (.error e) :=
  .error (.same e)

theorem of_ok {x y : Except CompileError α} (h : Extended tail stop extend x y) {a : α}
    (hx : x = .ok a) : y = .ok (extend a) := by
  cases h with
  | ok b =>
    cases hx
    rfl
  | error _ => cases hx

theorem of_error {x y : Except CompileError α} (h : Extended tail stop extend x y)
    {e : CompileError} (hx : x = .error e) : ∃ e', y = .error e' ∧ e.Extends tail stop e' := by
  cases h with
  | ok b => cases hx
  | error he =>
    cases hx
    exact ⟨_, rfl, he⟩

theorem bind {x y : Except CompileError α} {extend' : β → β} {f g : α → Except CompileError β}
    (h : Extended tail stop extend x y)
    (hf : ∀ a, x = .ok a → Extended tail stop extend' (f a) (g (extend a))) :
    Extended tail stop extend' (x >>= f) (y >>= g) := by
  cases h with
  | ok x => exact hf x rfl
  | error he => exact .error he

end Extended

namespace Lexeme

variable {classify : String → Lexeme} {cursor : Cursor}

theorem closeComment?_blanks (ht : Text.Blanks tail) : closeComment? column tail = none := by
  induction tail generalizing column with
  | nil => rfl
  | cons c tail ih =>
    obtain ⟨hc, ht⟩ := List.forall_mem_cons.mp ht
    rw [closeComment?_cons fun h => absurd h (Text.ne_of_kind Text.isBlank hc (by decide)), ih ht]

/-- Blanks close no comment. -/
theorem closeComment?_append (ht : Text.Blanks tail) :
    closeComment? column (chars ++ tail) = (closeComment? column chars).map (·.extend tail) := by
  fun_induction closeComment? column chars with
  | case1 column rest => rfl
  | case2 column c rest h ih =>
    rw [List.cons_append, closeComment?_cons, ih]
    intro hc hr
    obtain ⟨body, hr⟩ := List.head?_eq_some_iff.mp ((ht.head?_append (by decide)).mp hr)
    exact h body hc hr
  | case3 column => exact closeComment?_blanks ht

/-- Blanks go on with what is skipped, and are skipped themselves. -/
theorem skipTrivia_append (ht : Text.Blanks tail) : skipTrivia column (chars ++ tail) =
    skipTrivia column chars >>= fun place => skipTrivia place.column (place.rest ++ tail) := by
  fun_induction skipTrivia column chars with
  | case1 column body next closed ih =>
    have closed' : closeComment? (column + 2) (body ++ tail) = some (next.extend tail) := by
      rw [closeComment?_append ht, closed]
      rfl
    rw [List.cons_append, List.cons_append, skipTrivia_comment closed']
    exact ih
  | case2 column body unclosed =>
    rw [List.cons_append, List.cons_append, skipTrivia_unclosed]
    · rfl
    · rw [closeComment?_append ht, unclosed]
      rfl
  | case3 column c rest _ hb ih => rw [List.cons_append, skipTrivia_blank hb, ih]
  | case4 | case5 => rfl

theorem Trivia.of_blanks (ht : Text.Blanks tail) : Trivia tail := by
  induction tail with
  | nil => exact .nil
  | cons c tail ih =>
    obtain ⟨hc, ht⟩ := List.forall_mem_cons.mp ht
    exact .blank hc (ih ht)

theorem skipTrivia_blanks (ht : Text.Blanks tail) :
    skipTrivia column tail = .ok ⟨column + tail.length, []⟩ := by
  have hskip := skipTrivia_of_trivia (.of_blanks ht) column []
  rwa [List.append_nil, skipTrivia_nil] at hskip

/-- What has no blank is a prefix without the blanks at the end. -/
theorem isPrefixOf_append_blanks (ht : Text.Blanks tail) {written : List Char}
    (hw : ∀ d ∈ written, Text.isBlank d = false) :
    written.isPrefixOf (chars ++ tail) = written.isPrefixOf chars := by
  induction written generalizing chars with
  | nil => rfl
  | cons d written ih =>
    obtain ⟨hd, hw⟩ := List.forall_mem_cons.mp hw
    cases chars with
    | cons c chars =>
      rw [List.cons_append, List.isPrefixOf_cons_cons, List.isPrefixOf_cons_cons, ih hw]
    | nil =>
      cases tail with
      | nil => rfl
      | cons c tail =>
        have hne := Text.ne_of_kind Text.isBlank (ht c List.mem_cons_self) hd
        simp [List.isPrefixOf_cons_cons, hne.symm]

theorem symbolAt?_append_blanks (ht : Text.Blanks tail) :
    symbolAt? (chars ++ tail) = symbolAt? chars := by
  have visible : ∀ symbol ∈ operatorSymbols,
      symbol.written.toList.all (!Text.isBlank ·) = true := by
    decide
  refine List.find?_congr fun symbol hs => isPrefixOf_append_blanks ht ?_
  simpa using visible symbol hs

variable {stop : Nat}

/-- A lexeme is the same with blanks at the end. -/
theorem extended_ok (l : Lexeme) (column : Nat) (rest : List Char) :
    Extended tail stop (Prod.map id (Cursor.extend tail)) (.ok (l, ⟨column, rest⟩))
      (.ok (l, ⟨column, rest ++ tail⟩)) :=
  .ok (l, (⟨column, rest⟩ : Cursor))

theorem readNumber_append (ht : Text.Blanks tail) :
    Extended tail stop (Prod.map id (Cursor.extend tail)) (readNumber column c rest)
      (readNumber column c (rest ++ tail)) := by
  have hd : ∀ d ∈ tail.head?, d.isDigit = false ∧ d ≠ '.' := by
    intro d hd
    have hb := ht d (List.mem_of_mem_head? hd)
    exact ⟨Text.eq_false_of_isBlank Text.not_isBlank_of_isDigit hb,
      Text.ne_of_kind Text.isBlank hb (by decide)⟩
  simp only [readNumber, spanNumeral_before hd]
  split
  · exact extended_ok _ _ _
  · exact .same _

theorem readWord_append (ht : Text.Blanks tail) :
    Extended tail stop (Prod.map id (Cursor.extend tail)) (readWord classify column c rest)
      (readWord classify column c (rest ++ tail)) := by
  rcases hspan : spanName (c == '"') rest with ⟨taken, quoted, after⟩
  cases quoted with
  | true =>
    have hquote : '"' ∉ tail := fun hq => absurd (ht _ hq) (by decide)
    simp only [readWord, hspan, spanName_quotation hspan hquote, if_true]
    exact .same _
  | false =>
    have hnext : ∀ d ∈ tail.head?, Text.continuesWord d = false := fun d hd =>
      Text.eq_false_of_isBlank Text.not_isBlank_of_continuesWord (ht d (List.mem_of_mem_head? hd))
    simp only [readWord, hspan, spanName_before hspan hnext]
    exact extended_ok _ _ _

theorem readText_append (ht : Text.Blanks tail) (hs : stop = column + 1 + rest.length) :
    Extended tail stop (Prod.map id (Cursor.extend tail)) (readText column rest)
      (readText column (rest ++ tail)) := by
  unfold readText
  cases hd : Text.Quoted.decode (column + 1) rest with
  | ok answer =>
    obtain ⟨meant, next⟩ := answer
    rw [Text.Quoted.decode_append hd]
    exact extended_ok _ _ _
  | error fault =>
    obtain ⟨fault', hd', he⟩ := Text.Quoted.decode_append_blanks ht hd
    rw [hd']
    cases he with
    | same => cases fault <;> exact .same _
    | backslash hp hstop hc => exact .error (.backslash hp (by omega) hc)
    | escape hstop hl => exact .error (.escape (by omega) hl)

theorem read_append (ht : Text.Blanks tail) (hs : stop = column + 1 + rest.length) :
    Extended tail stop (Prod.map id (Cursor.extend tail)) (read classify column c rest)
      (read classify column c (rest ++ tail)) := by
  have hat : symbolAt? ((c :: rest) ++ tail) = symbolAt? (c :: rest) := symbolAt?_append_blanks ht
  rw [List.cons_append] at hat
  unfold read
  rw [hat]
  by_cases hopen : c = '('
  · simp only [if_pos hopen]
    exact extended_ok _ _ _
  by_cases hclose : c = ')'
  · simp only [if_neg hopen, if_pos hclose]
    exact extended_ok _ _ _
  by_cases hcomma : c = ','
  · simp only [if_neg hopen, if_neg hclose, if_pos hcomma]
    exact extended_ok _ _ _
  simp only [if_neg hopen, if_neg hclose, if_neg hcomma]
  cases hsymbol : symbolAt? (c :: rest) with
  | some symbol =>
    simp only [Cursor.advance, ← List.cons_append,
      List.drop_append_of_le_length (symbolAt?_length_le hsymbol)]
    exact extended_ok _ _ _
  | none =>
    split_ifs
    · exact readNumber_append ht
    · exact readText_append ht hs
    · exact readWord_append ht
    · exact .same _

/-- Scanning goes on to the blanks at the end and finds nothing in them. -/
theorem next?_append (ht : Text.Blanks tail) :
    Extended tail cursor.endColumn (Option.map (Prod.map id (Cursor.extend tail)))
      (next? classify cursor) (next? classify (cursor.extend tail)) := by
  obtain ⟨start, all⟩ := cursor
  have behind : skipTrivia start (all ++ tail) = skipTrivia start all >>= fun place =>
      skipTrivia place.column (place.rest ++ tail) := skipTrivia_append ht
  cases hskip : skipTrivia start all with
  | error e =>
    have hskip' : skipTrivia start (all ++ tail) = .error e := by
      rw [behind, hskip]
      rfl
    simp only [next?, Cursor.extend, hskip, hskip', bind, Except.bind]
    exact .same e
  | ok place =>
    obtain ⟨column, chars⟩ := place
    cases chars with
    | nil =>
      have hskip' : skipTrivia start (all ++ tail) = .ok ⟨column + tail.length, []⟩ := by
        rw [behind, hskip]
        exact skipTrivia_blanks ht
      simp only [next?, Cursor.extend, hskip, hskip', bind, Except.bind]
      exact .ok none
    | cons c rest =>
      obtain ⟨hb, hc⟩ := begins_of_skipTrivia hskip
      have hskip' : skipTrivia start (all ++ tail) = .ok ⟨column, c :: (rest ++ tail)⟩ := by
        rw [behind, hskip]
        exact skipTrivia_cons hb (hc.imp_right fun h => mt (ht.head?_append (by decide)).mp h)
      have hstop : start + all.length = column + 1 + rest.length := by
        have hend := skipTrivia_endColumn hskip
        simp only [Cursor.endColumn, List.length_cons] at hend
        omega
      simp only [next?, Cursor.extend, hskip, hskip']
      refine (read_append ht hstop).bind fun answer _ => ?_
      exact .ok (some (Located.mk answer.1 column, answer.2))

/-- **Blanks at the end** change neither what is taken nor whether it is, and of
the errors those that show in the blanks only. -/
theorem fold_append {σ : Type} {take : σ → Located → Except CompileError σ} {state : σ}
    (ht : Text.Blanks tail) : Extended tail cursor.endColumn id (fold classify take state cursor)
      (fold classify take state (cursor.extend tail)) := by
  have next (cursor : Cursor) : Extended tail cursor.endColumn _ (next? classify cursor) _ :=
    next?_append ht
  fun_induction fold classify take state cursor with
  | case1 state cursor e hn =>
    obtain ⟨e', hn', he⟩ := (next cursor).of_error hn
    rw [fold_of_error hn']
    exact .error he
  | case2 state cursor hn =>
    rw [fold_of_none ((next cursor).of_ok hn)]
    exact .ok state
  | case3 state cursor located after hn e he =>
    rw [fold_of_some ((next cursor).of_ok hn)]
    simp only [id, he]
    exact .same e
  | case4 state cursor located after hn state' hs ih =>
    rw [fold_of_some ((next cursor).of_ok hn)]
    simp only [id, hs]
    exact (next?_endColumn hn).1 ▸ ih

end Lexeme

end PanelCalc
