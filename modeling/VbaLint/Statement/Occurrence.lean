import VbaLint.Text.Alphabetic
import VbaLint.Text.Caseless
import VbaLint.Text.Piece

/-!
# Names that occur in an expression

A scan for the words that may refer to declarations. It passes over string literals, numbers, hex and
octal literals, reserved words, and the member names behind a dot or an exclamation mark.
-/

namespace VbaLint.Statement

open Text

def reservedWords : List String :=
  ["addressof", "and", "as", "byref", "byval", "call", "case", "const", "dim", "do", "each",
    "else", "elseif", "empty", "end", "eqv", "erase", "error", "exit", "false", "for", "function",
    "get", "gosub", "goto", "if", "imp", "in", "is", "let", "like", "loop", "me", "mod", "new",
    "next", "not", "nothing", "null", "on", "optional", "or", "paramarray", "preserve",
    "private", "property", "public", "redim", "resume", "select", "set", "static", "step",
    "sub", "then", "to", "true", "typeof", "until", "wend", "while", "with", "xor"]

def isReserved (word : List Char) : Bool :=
  reservedWords.any fun reserved ↦ sameIgnoringCase reserved.toList word

/-- A character that may begin a word of an expression. -/
def isIdentifierStart (c : Char) : Bool := isAlphabetic c || c == '_'

/-- A character that may continue a word of an expression. -/
def isIdentifierChar (c : Char) : Bool := isAlphanumeric c || c == '_'

/-- The text behind a string literal whose opening quote has been read; a doubled quote stands for
one and does not end the literal. -/
def afterString : List Char → List Char
  | [] => []
  | '"' :: '"' :: rest => afterString rest
  | '"' :: rest => rest
  | _ :: rest => afterString rest

theorem length_afterString_le (text : List Char) : (afterString text).length ≤ text.length := by
  fun_induction afterString text <;> simp <;> omega

/-- A digit of a hex literal. -/
def isHexDigit (c : Char) : Bool :=
  c.isDigit || ('a' ≤ c && c ≤ 'f') || ('A' ≤ c && c ≤ 'F')

/-- The word behind an ampersand is the rest of a hex or octal literal. -/
def isRadixLiteral : List Char → Bool
  | marker :: c :: digits =>
    (marker == 'h' || marker == 'H' || marker == 'o' || marker == 'O') && (c :: digits).all isHexDigit
  | _ => false

/-- The word may refer to a declaration, where `previous` is the character before it. -/
def isReference (previous : Option Char) (word : List Char) : Bool :=
  !(previous == some '.' || previous == some '!') &&
    !(previous == some '&' && isRadixLiteral word) && !isReserved word

/-- The referring words of `text`, which begins at byte `offset` behind the character `previous`. -/
def occurrencesFrom (previous : Option Char) (offset : Nat) : List Char → List Span
  | [] => []
  | c :: rest =>
    if c = '"' then
      occurrencesFrom (some '"')
        (offset + c.utf8Size + (byteLength rest - byteLength (afterString rest))) (afterString rest)
    else if c.isDigit then
      let number := rest.takeWhile fun d ↦ isAlphanumeric d || d == '.'
      occurrencesFrom (some (number.getLastD c)) (offset + c.utf8Size + byteLength number)
        (rest.drop number.length)
    else if isIdentifierStart c then
      let word := c :: rest.takeWhile isIdentifierChar
      let later :=
        occurrencesFrom (some (word.getLastD c)) (offset + byteLength word)
          (rest.drop (word.length - 1))
      if isReference previous word then ⟨word, offset⟩ :: later else later
    else occurrencesFrom (some c) (offset + c.utf8Size) rest
termination_by text => text.length
decreasing_by
  · have := length_afterString_le rest
    simp only [List.length_cons]
    omega
  · simp only [List.length_cons, List.length_drop]
    omega
  · simp only [List.length_cons, List.length_drop]
    omega
  · simp

/-- The words of an expression that may refer to declarations, with their offsets. -/
def occurrences (expression : List Char) : List Span := occurrencesFrom none 0 expression

end VbaLint.Statement
