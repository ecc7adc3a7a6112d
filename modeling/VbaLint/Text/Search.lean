import VbaLint.Text.Bytes

/-!
# Searching for a text inside another
-/

namespace VbaLint.Text

/-- The number of bytes before the first occurrence of `part`. -/
def offsetOf? (part : List Char) : List Char → Option Nat
  | [] => if part = [] then some 0 else none
  | c :: rest =>
    if part.isPrefixOf (c :: rest) then some 0 else (offsetOf? part rest).map (c.utf8Size + ·)

/-- The number of bytes before the first occurrence of `part`, zero if there is none. -/
def offsetOf (part text : List Char) : Nat := (offsetOf? part text).getD 0

end VbaLint.Text
