import VbaLint.Text.Caseless
import VbaLint.Text.Piece
import VbaLint.Text.WordChar

/-!
# Reading from the front of a statement

Each function takes something off the front of a text and gives what remains, or nothing if the text
does not begin so. Statement forms are chains of such steps. Words are matched in any case.
-/

namespace VbaLint.Statement

open Text

/-- The rest after the word `word`, which is given in lower case. -/
def afterWord : List Char → List Char → Option (List Char)
  | [], text => some text
  | _ :: _, [] => none
  | letter :: word, c :: text => if spells letter c then afterWord word text else none

def afterBlanks : List Char → Option (List Char)
  | [] => none
  | c :: text => if isBlank c then some (trimStart text) else none

/-- The rest after the word `word` and the blanks behind it. -/
def afterKeyword (word : String) (text : List Char) : Option (List Char) :=
  (afterWord word.toList text).bind afterBlanks

/-- The rest after the first of `words` that the text begins with, blanks included. -/
def afterOneOf (words : List String) (text : List Char) : Option (List Char) :=
  words.findSome? fun word ↦ afterKeyword word text

/-- The rest after one of `words` if there is one, else the whole text. -/
def skipOneOf (words : List String) (text : List Char) : List Char :=
  (afterOneOf words text).getD text

def allBlank (text : List Char) : Bool := text.all isBlank

/-- The combining iota below, the one mark with a letter among its case variants. -/
def isIotaBelow (c : Char) : Bool := c.toNat == 0x345

/-- A declared name begins with a letter, in any case, or an underscore. -/
def isNameStart (c : Char) : Bool := isLetter c || isIotaBelow c || c == '_'

/-- The longest run of characters satisfying `continues` that begins as a name does, and the rest. -/
def takeNameWith (continues : Char → Bool) : List Char → Option (List Char × List Char)
  | [] => none
  | c :: text =>
    if isNameStart c then some (c :: text.takeWhile continues, text.dropWhile continues) else none

/-- The declared name at the front of the text, and the rest. -/
def takeName (text : List Char) : Option (List Char × List Char) := takeNameWith isWordChar text

/-- The possibly dotted name at the front of the text, and the rest. -/
def takeDottedName (text : List Char) : Option (List Char × List Char) :=
  takeNameWith (fun c ↦ isWordChar c || c == '.') text

/-- A character that gives the type of the name before it. -/
def isTypeSuffix (c : Char) : Bool :=
  c == '$' || c == '%' || c == '&' || c == '!' || c == '#' || c == '@'

/-- The rest after one type suffix if there is one. -/
def skipTypeSuffix : List Char → List Char
  | [] => []
  | c :: text => if isTypeSuffix c then text else c :: text

/-- The place of `part` in `whole`, where `part` and then `rest` end the text. -/
def spanBefore (whole part rest : List Char) : Span :=
  ⟨part, byteLength whole - byteLength part - byteLength rest⟩

/-- The name that makes up the whole text but for a type suffix. -/
def plainName? (text : List Char) : Option (List Char) := do
  let (name, rest) ← takeName text
  if skipTypeSuffix rest = [] then some name else none

end VbaLint.Statement
