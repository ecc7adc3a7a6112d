import VbaLint.Text.Blank
import VbaLint.Text.Bytes

/-!
# Pieces of a text with their places

A text is cut at separators into pieces; what remains of a piece after trimming keeps the offset at
which it stands in the text.
-/

namespace VbaLint.Text

/-- A stretch of a text with the number of bytes before it. -/
structure Span where
  text : List Char
  offset : Nat
  deriving DecidableEq, Repr, Inhabited

/-- Put `c` in front of the first piece. -/
def consPiece (c : Char) : List (List Char) → List (List Char)
  | [] => [[c]]
  | piece :: rest => (c :: piece) :: rest

/-- The trimmed pieces that are not empty, where the pieces start at `offset` and a separator of one byte
stands between any two of them. -/
def locatePieces (offset : Nat) : List (List Char) → List Span
  | [] => []
  | piece :: rest =>
    let later := locatePieces (offset + byteLength piece + 1) rest
    if trim piece = [] then later
    else ⟨trim piece, offset + byteLength (piece.takeWhile isBlank)⟩ :: later

end VbaLint.Text
