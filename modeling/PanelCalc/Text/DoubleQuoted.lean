import PanelCalc.Text.Hidden

/-!
# Text for inspection

Text between double quotes as a reader of a log wants it: on one line, with every character that
would not show written by its code point.
-/

namespace PanelCalc.Text

/-- How a character is shown between double quotes. -/
def inspectChar (c : Char) : List Char :=
  if c = '"' then ['\\', '"']
  else if c = '\\' then ['\\', '\\']
  else if c = '\n' then ['\\', 'n']
  else if c = '\r' then ['\\', 'r']
  else if c = '\t' then ['\\', 't']
  else if c = '\x00' then ['\\', '0']
  else if isHidden c then
    ['\\', 'u', '\x7b'] ++ Nat.toDigits 16 c.toNat ++ ['\x7d']
  else [c]

def inspect (text : String) : String :=
  String.ofList ('"' :: text.toList.flatMap inspectChar ++ ['"'])

end PanelCalc.Text
