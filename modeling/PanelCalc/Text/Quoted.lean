import PanelCalc.Text.Cursor

/-!
# Quoted text

Text between single quotes. Quotes, backslashes and control characters inside are written with a
backslash; every other character stands for itself. Reading also accepts an escaped slash and any
character by four hexadecimal digits, and names the first place where the text cannot be read.
-/

namespace PanelCalc.Text.Quoted

def mark : Char := '\x27'

inductive Fault where
  /-- The text ends before the closing mark. -/
  | unterminated
  /-- A backslash at `column` is followed by characters that stand for nothing. -/
  | illegalEscape (column : Nat) (sequence : List Char)
deriving DecidableEq, Repr

/-- The letter that stands for a character after a backslash. -/
def escapeLetter? (c : Char) : Option Char :=
  if c = mark then some mark
  else if c = '\\' then some '\\'
  else if c = '\x08' then some 'b'
  else if c = '\x0C' then some 'f'
  else if c = '\n' then some 'n'
  else if c = '\r' then some 'r'
  else if c = '\t' then some 't'
  else none

/-- The character that a letter after a backslash stands for. -/
def ofEscapeLetter? (letter : Char) : Option Char :=
  if letter = mark then some mark
  else if letter = '\\' then some '\\'
  else if letter = '/' then some '/'
  else if letter = 'b' then some '\x08'
  else if letter = 'f' then some '\x0C'
  else if letter = 'n' then some '\n'
  else if letter = 'r' then some '\r'
  else if letter = 't' then some '\t'
  else none

def isControl (c : Char) : Bool :=
  c.toNat < 0x20 || (0x7F ≤ c.toNat && c.toNat ≤ 0x9F)

def fourHexDigits (n : Nat) : List Char :=
  [n / 4096 % 16, n / 256 % 16, n / 16 % 16, n % 16].map Nat.digitChar

/-- How a character is written between the marks. -/
def encodeChar (c : Char) : List Char :=
  match escapeLetter? c with
  | some letter => ['\\', letter]
  | none => if isControl c then '\\' :: 'u' :: fourHexDigits c.toNat else [c]

/-- How characters are written between the marks. -/
def encode (chars : List Char) : List Char := chars.flatMap encodeChar

def quote (text : String) : String :=
  String.ofList (mark :: encode text.toList ++ [mark])

def hexValue? (c : Char) : Option Nat :=
  if '0' ≤ c ∧ c ≤ '9' then some (c.toNat - '0'.toNat)
  else if 'a' ≤ c ∧ c ≤ 'f' then some (c.toNat - 'a'.toNat + 10)
  else if 'A' ≤ c ∧ c ≤ 'F' then some (c.toNat - 'A'.toNat + 10)
  else none

/-- The character with the code point of four hexadecimal digits. -/
def ofHexDigits? (a b c d : Char) : Option Char := do
  let point := (((← hexValue? a) * 16 + (← hexValue? b)) * 16 + (← hexValue? c)) * 16
    + (← hexValue? d)
  if point.isValidChar then some (Char.ofNat point) else none

def prepend (c : Char) (result : Except Fault (List Char × Cursor)) :
    Except Fault (List Char × Cursor) :=
  result.map fun (chars, cursor) => (c :: chars, cursor)

theorem prepend_eq_ok {c : Char} {result : Except Fault (List Char × Cursor)}
    {chars : List Char} {cursor : Cursor} :
    prepend c result = .ok (chars, cursor) ↔
      ∃ others, result = .ok (others, cursor) ∧ chars = c :: others := by
  cases result <;> simp [prepend, Except.map, Prod.ext_iff]
  grind

/--
Reads up to and including the closing mark, with the characters from `column` on given. The answer
holds the characters meant and the place after the mark.
-/
def decode (column : Nat) : List Char → Except Fault (List Char × Cursor)
  | [] => .error .unterminated
  | c :: rest =>
    if c = mark then .ok ([], ⟨column + 1, rest⟩)
    else if c = '\\' then
      match rest with
      | [] => .error .unterminated
      | 'u' :: p :: q :: r :: s :: rest =>
        match ofHexDigits? p q r s with
        | some meant => prepend meant (decode (column + 6) rest)
        | none => .error (.illegalEscape column ['u', p, q, r, s])
      | letter :: rest =>
        match ofEscapeLetter? letter with
        | some meant => prepend meant (decode (column + 2) rest)
        | none =>
          .error (.illegalEscape column (letter :: if letter = 'u' then rest else []))
    else prepend c (decode (column + 1) rest)

theorem length_decode_le {column : Nat} {chars meant : List Char} {cursor : Cursor}
    (h : decode column chars = .ok (meant, cursor)) : cursor.rest.length ≤ chars.length := by
  fun_induction decode column chars generalizing meant cursor <;> grind [prepend_eq_ok]

end PanelCalc.Text.Quoted
