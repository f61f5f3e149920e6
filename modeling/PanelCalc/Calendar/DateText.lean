import PanelCalc.Calendar.Date
import PanelCalc.Text.Blank

/-!
# The text of a date

Dates are written as year, month and day with hyphens between. Years of four digits carry no sign;
all others carry one. Reading is more generous: blanks may stand around the parts, and leading zeros
may be left out.
-/

namespace PanelCalc.Date

/-- The decimal digits of a number, filled up with zeros to a width. -/
def padded (width n : Nat) : String :=
  let digits := Nat.toDigits 10 n
  String.ofList (List.replicate (width - digits.length) '0' ++ digits)

def yearText (year : Int) : String :=
  if 0 ≤ year ∧ year ≤ 9999 then padded 4 year.toNat
  else (if year < 0 then "-" else "+") ++ padded 4 year.natAbs

def toText (date : Date) : String :=
  yearText date.year ++ "-" ++ padded 2 date.month ++ "-" ++ padded 2 date.day

/-- The number that up to `width` leading digits stand for, and what follows; one digit at least. -/
def readNumber? (width : Nat) (chars : List Char) : Option (Nat × List Char) :=
  let digits := (chars.take width).takeWhile Char.isDigit
  if digits.isEmpty then none
  else some (Nat.ofDigitChars 10 digits 0, chars.drop digits.length)

/-- A year: four digits at most, or any number of them after a sign. -/
def readYear? (chars : List Char) : Option (Int × List Char) :=
  match chars with
  | '-' :: digits => (readNumber? digits.length digits).map fun (n, rest) => (-n, rest)
  | '+' :: digits => (readNumber? digits.length digits).map fun (n, rest) => (n, rest)
  | _ => (readNumber? 4 chars).map fun (n, rest) => (n, rest)

def skipBlanks (chars : List Char) : List Char := chars.dropWhile Text.isBlank

/-- What follows a hyphen and the blanks around it. -/
def readHyphen? (chars : List Char) : Option (List Char) :=
  match skipBlanks chars with
  | '-' :: rest => some (skipBlanks rest)
  | _ => none

def ofText? (text : String) : Option Date := do
  let (year, rest) ← readYear? (skipBlanks text.toList)
  let (month, rest) ← readNumber? 2 (← readHyphen? rest)
  let (day, rest) ← readNumber? 2 (← readHyphen? rest)
  if (skipBlanks rest).isEmpty then ofParts? year month day else none

end PanelCalc.Date
