import PanelCalc.Text.Alphabetic
import PanelCalc.Text.Numeric

/-!
# Words

Which characters make up a word, and which words serve as identifiers.
-/

namespace PanelCalc.Text

def isAlphanumeric (c : Char) : Bool := isAlphabetic c || isNumeric c

def isIdentifierStart (c : Char) : Bool := isAlphabetic c || c == '_'

def isIdentifierPart (c : Char) : Bool := isAlphanumeric c || c == '_'

/-- Whether the text is a letter or underscore followed by letters, numbers and underscores. -/
def isIdentifier (text : String) : Bool :=
  match text.toList with
  | [] => false
  | first :: others => isIdentifierStart first && others.all isIdentifierPart

def hasLetter (text : String) : Bool := text.toList.any isAlphabetic

end PanelCalc.Text
