import VbaLint.Statement.Items
import VbaLint.Statement.Scan

/-!
# Directives in comments

A comment that begins with an at sign and a known name is a directive. `Ignore` and `IgnoreModule`
list inspection names; `Folder` and `Description` hold one text.
-/

namespace VbaLint.Statement

open Text

inductive Directive where
  | ignore (names : List String)
  | ignoreModule (names : List String)
  | folder (text : String)
  | description (text : String)
  deriving DecidableEq, Repr

namespace Directive

/-- The inspection names that the directive silences, if it silences any. -/
def suppressedNames? : Directive → Option (List String)
  | ignore names | ignoreModule names => some names
  | folder _ | description _ => none

end Directive

/-- The text without the characters `c` at both ends. -/
def stripChar (c : Char) (text : List Char) : List Char :=
  dropEndWhile (· == c) (text.dropWhile (· == c))

def directiveNames (list : List Char) : List String :=
  ((items list).map fun item ↦ stripChar '"' item.text).filterMap fun name ↦
    if name.isEmpty then none else some (String.ofList name)

def directiveText (argument : List Char) : String :=
  String.ofList <|
    stripChar '"' (trim (dropEndWhile (· == ')') (argument.dropWhile (· == '('))))

def takeDirective (comment : List Char) : Option (List Char × List Char) :=
  match trim comment with
  | '@' :: c :: rest =>
    if c.isAlpha then some (c :: rest.takeWhile isWordChar, trim (rest.dropWhile isWordChar))
    else none
  | _ => none

def directive? (comment : List Char) : Option Directive := do
  let (name, argument) ← takeDirective comment
  let name := lowerAscii name
  if name = "ignore".toList then some (.ignore (directiveNames argument))
  else if name = "ignoremodule".toList then some (.ignoreModule (directiveNames argument))
  else if name = "folder".toList then some (.folder (directiveText argument))
  else if name = "description".toList then some (.description (directiveText argument))
  else none

end VbaLint.Statement
