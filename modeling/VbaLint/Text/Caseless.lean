/-!
# Comparison without regard to case

Names are compared after lowering ASCII letters only. Keywords in a statement are matched letter by
letter under simple case folding, which for an ASCII letter adds two more characters: the long s and
the Kelvin sign.
-/

namespace VbaLint.Text

def lowerAscii (text : List Char) : List Char := text.map Char.toLower

def lowerAsciiString (text : String) : String := String.ofList (lowerAscii text.toList)

/-- Equality of texts up to the case of ASCII letters. -/
def sameIgnoringCase (left right : List Char) : Bool := lowerAscii left == lowerAscii right

/-- Equality of names up to the case of ASCII letters. -/
def sameName (left right : String) : Bool := sameIgnoringCase left.toList right.toList

/-- The character `c` is a case variant of the lowercase ASCII letter `letter`. -/
def spells (letter c : Char) : Bool :=
  c.toLower == letter || (letter == 's' && c == 'ſ') || (letter == 'k' && c == '\u212A')

end VbaLint.Text
