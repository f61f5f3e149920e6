import PanelCalc.Text.CharRanges

/-!
# Blank characters

The Unicode property White_Space, and the trimming of text by it.
-/

namespace PanelCalc.Text

def blankRanges : CharRanges := [
  (0x9, 0xD), (0x20, 0x20), (0x85, 0x85), (0xA0, 0xA0), (0x1680, 0x1680), (0x2000, 0x200A),
  (0x2028, 0x2029), (0x202F, 0x202F), (0x205F, 0x205F), (0x3000, 0x3000)]

/-- Whether the character only separates others. -/
def isBlank (c : Char) : Bool := blankRanges.contains c

/-- The text without the blanks before its first and after its last visible character. -/
def trim (text : String) : String :=
  let front := text.toList.dropWhile isBlank
  String.ofList (front.reverse.dropWhile isBlank).reverse

end PanelCalc.Text
