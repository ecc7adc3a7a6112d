import VbaLint.Text.Blank

/-!
# Physical and logical lines

A line ends at a line feed, with a carriage return before it if there is one. Physical lines that end
in a blank and an underscore, or hold an underscore alone, continue on the next line; a maximal run of
such lines and the one after it make up a logical line.
-/

namespace VbaLint.Source

open Text

/-- A line read backwards, without the carriage return that belongs to its end. -/
def withoutReturn : List Char → List Char
  | '\r' :: reversed => reversed
  | reversed => reversed

/-- The lines of a text, where `reversed` is what has been read of the current line. -/
def linesFrom (reversed : List Char) : List Char → List (List Char)
  | [] => if reversed = [] then [] else [reversed.reverse]
  | c :: rest =>
    if c = '\n' then (withoutReturn reversed).reverse :: linesFrom [] rest
    else linesFrom (c :: reversed) rest

/-- The lines of a text without their ends; a final line feed starts no further line. -/
def physicalLines (source : List Char) : List (List Char) := linesFrom [] source

/-- The right-trimmed line ends in a continuation mark. -/
def isContinued (line : List Char) : Bool :=
  line == ['_'] || [' ', '_'].isSuffixOf line

/-- The code on one physical line: without its continuation mark if it has one, as it stands if not. -/
def lineContent (line : List Char) : List Char :=
  if isContinued (trimEnd line) then trimEnd (trimEnd line).dropLast else line

/-- Joined physical lines with the place that they cover. -/
structure LogicalLine where
  text : List Char
  startLine : Nat
  endLine : Nat
  endColumn : Nat
  deriving DecidableEq, Repr

namespace LogicalLine

/-- The logical line that starts with the physical line `line`, whose number is `number`. -/
def begin (number : Nat) (line : List Char) : LogicalLine :=
  ⟨lineContent line, number, number, (trimEnd line).length⟩

/-- The logical line prolonged by a physical line, with one space between the two. -/
def prolong (logical : LogicalLine) (number : Nat) (line : List Char) : LogicalLine :=
  { logical with
    text := logical.text ++ ' ' :: trimStart (lineContent line)
    endLine := number
    endColumn := (trimEnd line).length }

/-- It covers one physical line only. -/
def isSingle (logical : LogicalLine) : Bool := logical.startLine == logical.endLine

end LogicalLine

/-- Join physical lines from line `number` on, where `pending` is a logical line that continues. -/
def joinLines (pending : Option LogicalLine) (number : Nat) : List (List Char) → List LogicalLine
  | [] => pending.toList
  | line :: rest =>
    let logical :=
      match pending with
      | some started => started.prolong number line
      | none => .begin number line
    if isContinued (trimEnd line) then joinLines (some logical) (number + 1) rest
    else logical :: joinLines none (number + 1) rest

def logicalLines (source : List Char) : List LogicalLine :=
  joinLines none 1 (physicalLines source)

end VbaLint.Source
