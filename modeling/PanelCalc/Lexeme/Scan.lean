import PanelCalc.CompileError
import PanelCalc.Lexeme.Symbols
import PanelCalc.Text.Blank
import PanelCalc.Text.Quoted
import PanelCalc.Text.Word

/-!
# Scanning lexemes

A formula is read one lexeme at a time. Blanks and comments before a lexeme are skipped. What a word
means depends on the vocabulary, which takes part as a function `classify` from words to lexemes.
Every lexeme takes up at least one character (`next?_length_lt`), so reading all of them ends.
-/

namespace PanelCalc.Lexeme

open Text (Cursor)

/-! ## Blanks and comments -/

/-- The place after the first `*/`, if there is one. -/
def closeComment? (column : Nat) : List Char → Option Cursor
  | '*' :: '/' :: rest => some ⟨column + 2, rest⟩
  | _ :: rest => closeComment? (column + 1) rest
  | [] => none

theorem closeComment?_length_lt {column : Nat} {chars : List Char} {cursor : Cursor}
    (h : closeComment? column chars = some cursor) : cursor.rest.length < chars.length := by
  fun_induction closeComment? column chars <;> grind

/-- The place after the blanks and comments that the characters begin with. -/
def skipTrivia (column : Nat) : List Char → Except CompileError Cursor
  | '/' :: '*' :: body =>
    match _closed : closeComment? (column + 2) body with
    | some next => skipTrivia next.column next.rest
    | none => .error ⟨column, .lexical .unterminatedComment⟩
  | c :: rest =>
    if Text.isBlank c then skipTrivia (column + 1) rest else .ok ⟨column, c :: rest⟩
  | [] => .ok ⟨column, []⟩
termination_by chars => chars.length
decreasing_by
  · have := closeComment?_length_lt _closed
    simp only [List.length_cons]
    omega
  · simp

/-! ## Numbers and names -/

/-- The longest run of digits with one point at most, and what follows it. -/
def spanNumeral (seenPoint : Bool) : List Char → List Char × List Char
  | [] => ([], [])
  | c :: rest =>
    if c.isDigit || (c == '.' && !seenPoint) then
      let (taken, rest) := spanNumeral (seenPoint || c == '.') rest
      (c :: taken, rest)
    else ([], c :: rest)

/-- The double nearest to a run of digits with one point at most. -/
def numeralValue (chars : List Char) : Float :=
  let places := (chars.dropWhile (· != '.')).length - 1
  Float.ofScientific (Nat.ofDigitChars 10 (chars.filter Char.isDigit) 0) true places

/--
The longest run of letters, numbers, underscores and points, in which quotes may enclose any other
characters; whether it ends inside quotes; and what follows it.
-/
def spanName (quoted : Bool) : List Char → List Char × Bool × List Char
  | [] => ([], quoted, [])
  | c :: rest =>
    if quoted || c == '"' || Text.isIdentifierPart c || c == '.' then
      let (taken, quoted, rest) := spanName (if c = '"' then !quoted else quoted) rest
      (c :: taken, quoted, rest)
    else ([], quoted, c :: rest)

/-- The operator symbol that the characters begin with. -/
def symbolAt? (chars : List Char) : Option OperatorSymbol :=
  operatorSymbols.find? fun symbol => symbol.written.toList.isPrefixOf chars

/-! ## Lexemes -/

/-- Reads a number that begins with the digit or point `c`. -/
def readNumber (column : Nat) (c : Char) (rest : List Char) :
    Except CompileError (Lexeme × Cursor) :=
  let (taken, rest) := spanNumeral (c == '.') rest
  if (c :: taken).any Char.isDigit then
    .ok (number (numeralValue (c :: taken)), ⟨column + 1 + taken.length, rest⟩)
  else .error ⟨column, .lexical .malformedNumber⟩

/-- Reads a quoted text after its opening mark. -/
def readText (column : Nat) (rest : List Char) : Except CompileError (Lexeme × Cursor) :=
  match Text.Quoted.decode (column + 1) rest with
  | .ok (chars, next) => .ok (text (String.ofList chars), next)
  | .error .unterminated => .error ⟨column, .lexical .unterminatedString⟩
  | .error (.illegalEscape place sequence) => .error ⟨place, .lexical (.illegalEscape sequence)⟩

/-- Reads a word that begins with `c`. -/
def readWord (classify : String → Lexeme) (column : Nat) (c : Char) (rest : List Char) :
    Except CompileError (Lexeme × Cursor) :=
  let (taken, quoted, rest) := spanName (c == '"') rest
  if quoted then .error ⟨column, .lexical .unterminatedName⟩
  else .ok (classify (String.ofList (c :: taken)), ⟨column + 1 + taken.length, rest⟩)

/-- Reads the lexeme that begins with `c`. -/
def read (classify : String → Lexeme) (column : Nat) (c : Char) (rest : List Char) :
    Except CompileError (Lexeme × Cursor) :=
  if c = '(' then .ok (openParen, ⟨column + 1, rest⟩)
  else if c = ')' then .ok (closeParen, ⟨column + 1, rest⟩)
  else if c = ',' then .ok (comma, ⟨column + 1, rest⟩)
  else
    match symbolAt? (c :: rest) with
    | some symbol =>
      .ok (operator symbol.name, Cursor.advance ⟨column, c :: rest⟩ symbol.written.length)
    | none =>
      if c.isDigit || c == '.' then readNumber column c rest
      else if c = Text.Quoted.mark then readText column rest
      else if Text.isIdentifierStart c || c == '"' then readWord classify column c rest
      else .error ⟨column, .lexical (.unknownCharacter c)⟩

/-- The next lexeme and the place after it; `none` at the end of the text. -/
def next? (classify : String → Lexeme) (cursor : Cursor) :
    Except CompileError (Option (Located × Cursor)) := do
  let cursor ← skipTrivia cursor.column cursor.rest
  match cursor.rest with
  | [] => return none
  | c :: rest =>
    let (lexeme, next) ← read classify cursor.column c rest
    return some (⟨lexeme, cursor.column⟩, next)

/-! ## Progress -/

theorem skipTrivia_length_le {column : Nat} {chars : List Char} {cursor : Cursor}
    (h : skipTrivia column chars = .ok cursor) : cursor.rest.length ≤ chars.length := by
  fun_induction skipTrivia column chars with
  | case1 column body next closed ih =>
    have := closeComment?_length_lt closed
    have := ih h
    simp only [List.length_cons]
    omega
  | _ => grind

theorem length_spanNumeral_le (seenPoint : Bool) (chars : List Char) :
    (spanNumeral seenPoint chars).2.length ≤ chars.length := by
  fun_induction spanNumeral seenPoint chars <;> grind

theorem length_spanName_le (quoted : Bool) (chars : List Char) :
    (spanName quoted chars).2.2.length ≤ chars.length := by
  fun_induction spanName quoted chars <;> grind

theorem symbolAt?_length_pos {chars : List Char} {symbol : OperatorSymbol}
    (h : symbolAt? chars = some symbol) : 0 < symbol.written.length := by
  have : ∀ symbol ∈ operatorSymbols, 0 < symbol.written.length := by decide
  exact this symbol (List.mem_of_find?_eq_some h)

theorem readText_length_le {column : Nat} {rest : List Char} {lexeme : Lexeme} {next : Cursor}
    (h : readText column rest = .ok (lexeme, next)) : next.rest.length ≤ rest.length := by
  unfold readText at h
  split at h
  · rename_i chars place decoded
    have := Text.Quoted.length_decode_le decoded
    grind
  all_goals grind

theorem read_length_le {classify : String → Lexeme} {column : Nat} {c : Char} {rest : List Char}
    {lexeme : Lexeme} {next : Cursor} (h : read classify column c rest = .ok (lexeme, next)) :
    next.rest.length ≤ rest.length := by
  unfold read at h
  split at h
  · grind
  split at h
  · grind
  split at h
  · grind
  split at h
  · rename_i found
    have := symbolAt?_length_pos found
    simp only [Except.ok.injEq, Prod.mk.injEq] at h
    simp only [← h.2, Cursor.advance, List.length_drop, List.length_cons]
    omega
  split at h
  · grind [readNumber, length_spanNumeral_le]
  split at h
  · exact readText_length_le h
  · grind [readWord, length_spanName_le]

/-- Reading a lexeme takes up at least one character. -/
theorem next?_length_lt {classify : String → Lexeme} {cursor next : Cursor} {located : Located}
    (h : next? classify cursor = .ok (some (located, next))) :
    next.rest.length < cursor.rest.length := by
  unfold next? at h
  cases skipped : skipTrivia cursor.column cursor.rest with
  | error error => simp [skipped, bind, Except.bind] at h
  | ok place =>
    have := skipTrivia_length_le skipped
    simp only [skipped, bind, Except.bind] at h
    split at h
    · simp [pure, Except.pure] at h
    · rename_i c rest starts
      cases found : read classify place.column c rest with
      | error error => simp [found] at h
      | ok answer =>
        obtain ⟨lexeme, after⟩ := answer
        have := read_length_le found
        simp [found, pure, Except.pure] at h
        rw [← h.2]
        simp [starts] at *
        omega

end PanelCalc.Lexeme
