import VbaLint.Text.Piece

/-!
# Lists of items

The items of a list stand between commas that lie outside string literals and parentheses. Empty items
are left out. A closing parenthesis too many does not hide the commas after it.
-/

namespace VbaLint.Statement

open Text

/-- The change of nesting depth made by one character of code. The counter has 32 bits and wraps, so it
tells the depth of texts with less than 2 ^ 31 parentheses. -/
def depthAfter (depth : Int32) (c : Char) : Int32 :=
  if c = '(' then depth + 1 else if c = ')' then depth - 1 else depth

/-- The item from byte `start` up to byte `stop`, if something is left of it after trimming. There is no
answer if a character is cut. -/
def itemIn? (text : List Char) (start stop : Nat) : Option (List Span) :=
  (slice? text start stop).map fun piece ↦
    if trim piece = [] then []
    else [⟨trim piece, start + (byteLength piece - byteLength (trimStart piece))⟩]

/-- The items from byte `start` on, where the scan has come to byte `place`. -/
def itemsFrom? (text : List Char) (depth : Int32) (inString : Bool) (start place : Nat) :
    List Char → Option (List Span)
  | [] => itemIn? text start (byteLength text)
  | c :: rest =>
    if c = ',' && !inString && depth ≤ 0 then do
      let item ← itemIn? text start place
      let later ← itemsFrom? text depth inString (place + 1) (place + c.utf8Size) rest
      return item ++ later
    else
      itemsFrom? text (if inString then depth else depthAfter depth c)
        (if c = '"' then !inString else inString) start (place + c.utf8Size) rest

def items? (list : List Char) : Option (List Span) := itemsFrom? list 0 false 0 0 list

/-- The items of a list with their offsets, where none cuts a character. -/
def items (list : List Char) : List Span := (items? list).getD []

end VbaLint.Statement
