/-!
# Ranges of source text

Lines and columns count from one and the end is inclusive. A node that has not been given a place yet
has the range of four zeros. The numbers have no bound here; those of a text of fewer than 2³² characters
fit into 32 bits, and only such texts are meant.
-/

namespace VbaLint.Source

/-- A range of source text. -/
structure Selection where
  startLine : Nat
  startColumn : Nat
  endLine : Nat
  endColumn : Nat
  deriving DecidableEq, Repr, Hashable

namespace Selection

/-- The range of a node without a place. -/
def unset : Selection := ⟨0, 0, 0, 0⟩

instance : Inhabited Selection := ⟨unset⟩

def onLine (line column length : Nat) : Selection :=
  ⟨line, column, line, if length = 0 then column else column + length - 1⟩

/-- The order of positions: by line, then by column. -/
def positionLE (left right : Nat × Nat) : Bool :=
  left.1 < right.1 || (left.1 == right.1 && left.2 ≤ right.2)

def union (left right : Selection) : Selection :=
  let start :=
    if positionLE (left.startLine, left.startColumn) (right.startLine, right.startColumn) then
      (left.startLine, left.startColumn)
    else (right.startLine, right.startColumn)
  let finish :=
    if positionLE (left.endLine, left.endColumn) (right.endLine, right.endColumn) then
      (right.endLine, right.endColumn)
    else (left.endLine, left.endColumn)
  ⟨start.1, start.2, finish.1, finish.2⟩

/-- Widening: a range that is still unset is replaced. -/
def widen (current added : Selection) : Selection :=
  if current = unset then added else current.union added

/-- The line lies between the first and the last line of the range. -/
def containsLine (selection : Selection) (line : Nat) : Bool :=
  selection.startLine ≤ line && line ≤ selection.endLine

/-- Lexicographic order of the four numbers. -/
def order (left right : Selection) : Ordering :=
  (compare left.startLine right.startLine).then <|
    (compare left.startColumn right.startColumn).then <|
      (compare left.endLine right.endLine).then (compare left.endColumn right.endColumn)

/-- The start of the range, as written in reports. -/
def label (selection : Selection) : String :=
  "L" ++ toString selection.startLine ++ "C" ++ toString selection.startColumn

end Selection

end VbaLint.Source
