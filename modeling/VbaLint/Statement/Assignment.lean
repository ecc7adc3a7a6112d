import VbaLint.Statement.Occurrence
import VbaLint.Statement.Scan

/-!
# Assignments

An assignment is cut at its first equals sign that has text before and behind it. An assignment
without a keyword must begin with a name, perhaps dotted and indexed, that is no reserved word.
-/

namespace VbaLint.Statement

open Text

structure Assignment where
  target : Span
  value : Span
  deriving DecidableEq, Repr

/-- The text before and behind the first equals sign that does not end the text. -/
def splitAtEquals : List Char → Option (List Char × List Char)
  | [] => none
  | c :: rest =>
    if c = '=' && !rest.isEmpty then some ([], rest)
    else (splitAtEquals rest).map fun (before, behind) ↦ (c :: before, behind)

/-- The assignment whose value is `behind`, the end of the statement `text`. -/
def assignTo (text : List Char) (target : Span) (behind : List Char) : Assignment :=
  let value := trimStart behind
  ⟨target, ⟨value, byteLength text - byteLength value⟩⟩

/-- Read an assignment with the keyword `word`. An equals sign at the very front of the target
belongs to it; only if no other sign is there does it follow an empty target, which then is the blank
before it. -/
def keywordAssignment? (word : String) (text : List Char) : Option Assignment := do
  let blanks ← afterWord word.toList text
  let body ← afterBlanks blanks
  let offset := byteLength text - byteLength body
  let first :: rest := body | none
  match splitAtEquals rest with
  | some (before, behind) => some (assignTo text ⟨trimEnd (first :: before), offset⟩ behind)
  | none =>
    if first = '=' && !rest.isEmpty && body.length + 2 ≤ blanks.length then
      let blank := (blanks.drop (blanks.length - body.length - 1)).take 1
      some (assignTo text ⟨blank, offset - byteLength blank⟩ rest)
    else none

/-- The target of an assignment without keyword and the text behind the equals sign. An index goes up
to the last closing parenthesis before the sign. -/
def takeTarget (text : List Char) : Option (List Char × List Char) := do
  let (_, rest) ← takeDottedName text
  let rest := skipTypeSuffix rest
  let index :=
    if rest.head? = some '(' then trimEnd (rest.takeWhile (· != '=')) else []
  if rest.head? = some '(' && index.getLast? != some ')' then none
  else
    match trimStart (rest.drop index.length) with
    | '=' :: behind => some (text.take (text.length - rest.length + index.length), behind)
    | _ => none

def plainAssignment? (text : List Char) : Option Assignment := do
  let (target, behind) ← takeTarget text
  if behind.isEmpty || isReserved (target.takeWhile fun c ↦ c != '.' && c != '(') then none
  else some (assignTo text ⟨target, 0⟩ behind)

end VbaLint.Statement
