import VbaLint.Statement.Assignment
import VbaLint.Statement.Signature

/-!
# Shapes of statements

A statement has the first shape of a fixed list whose form it fits. Statements come without outer
blanks and without line ends.
-/

namespace VbaLint.Statement

open Text Tree

inductive Shape where
  | option (kind : NodeKind)
  | attribute
  | procedureEnd
  | procedureStart (signature : Signature)
  | blockEnd
  | blockStart (kind : NodeKind) (name : Span)
  | declare
  | constants (list : Span)
  | variables (list : Span)
  | setAssignment (assignment : Assignment)
  | letAssignment (assignment : Assignment)
  | call (expression : Span)
  | other
  deriving DecidableEq, Repr

def isWord (word : String) (text : List Char) : Bool :=
  ((afterWord word.toList text).map allBlank).getD false

/-- The text is a run of one or more characters satisfying `p`, and blanks. -/
def isRun (p : Char → Bool) (text : List Char) : Bool :=
  !(text.takeWhile p).isEmpty && allBlank (text.dropWhile p)

/-- The kind of an `Option` statement. The word `Base` written with a long s is no ASCII word and
counts as the last kind. -/
def optionKind? (text : List Char) : Option NodeKind := do
  let setting ← afterKeyword "option" text
  if isWord "explicit" setting then some .optionExplicitStmt
  else if ((afterKeyword "base" setting).map (isRun isDecimalDigit)).getD false then
    if lowerAscii (setting.take 4) = "base".toList then some .optionBaseStmt
    else some .optionPrivateModuleStmt
  else if ((afterKeyword "compare" setting).map (isRun isWordChar)).getD false then
    some .optionCompareStmt
  else if ((afterKeyword "private" setting).map (isWord "module")).getD false then
    some .optionPrivateModuleStmt
  else none

def isEndOf (words : List String) (text : List Char) : Bool :=
  match afterKeyword "end" text with
  | some rest => words.any fun word ↦ isWord word rest
  | none => false

/-- The kind and name of a block that a `Type` or `Enum` line opens. -/
def blockStart? (text : List Char) : Option (NodeKind × Span) := do
  let text' := skipOneOf ["public", "private"] text
  let (kind, rest) ←
    ((afterKeyword "type" text').map fun rest ↦ (NodeKind.typeStmt, rest)).or
      ((afterKeyword "enum" text').map fun rest ↦ (NodeKind.enumStmt, rest))
  let (name, rest) ← takeName rest
  if allBlank rest then some (kind, spanBefore text name rest) else none

def constantList? (text : List Char) : Option Span := do
  let list ← afterKeyword "const" (skipOneOf ["public", "private", "global"] text)
  if list.isEmpty then none else some (spanBefore text list [])

def variableList? (text : List Char) : Option Span := do
  let list ← afterOneOf ["dim", "private", "public", "global", "static"] text
  if list.isEmpty then none else some (spanBefore text list [])

def callExpression? (text : List Char) : Option Span := do
  let expression ← afterKeyword "call" text
  if expression.isEmpty then none else some (spanBefore text expression [])

def shapeOf (text : List Char) : Shape :=
  if let some kind := optionKind? text then .option kind
  else if (afterKeyword "attribute" text).isSome then .attribute
  else if isEndOf ["sub", "function", "property"] text then .procedureEnd
  else if let some signature := signature? text then .procedureStart signature
  else if isEndOf ["type", "enum"] text then .blockEnd
  else if let some (kind, name) := blockStart? text then .blockStart kind name
  else if (afterKeyword "declare" (skipOneOf ["public", "private"] text)).isSome then .declare
  else if let some list := constantList? text then .constants list
  else if let some list := variableList? text then .variables list
  else if let some assignment := keywordAssignment? "set" text then .setAssignment assignment
  else if let some assignment := keywordAssignment? "let" text then .letAssignment assignment
  else if let some assignment := plainAssignment? text then .letAssignment assignment
  else if let some expression := callExpression? text then .call expression
  else .other

end VbaLint.Statement
