import VbaLint.Source.Line
import VbaLint.Source.Selection
import VbaLint.Text.Caseless
import VbaLint.Text.Piece

/-!
# Statements and comments

A logical line holds statements separated by colons and at most one comment at its end. An apostrophe
outside a string literal starts a comment; so does a statement whose first word is `Rem`. A colon
before an equals sign belongs to a named argument and separates nothing.
-/

namespace VbaLint.Source

open Text

/-- A piece of source text with its place. -/
structure Segment where
  text : List Char
  selection : Selection
  deriving DecidableEq, Repr

/-- A statement, or a comment without its marker. -/
inductive LineItem where
  | statement (segment : Segment)
  | comment (segment : Segment)
  deriving DecidableEq, Repr

/-- The code of a line and its rest from the apostrophe that starts a comment. -/
def splitComment (inString : Bool) : List Char → List Char × List Char
  | [] => ([], [])
  | c :: rest =>
    if c = '\'' && !inString then ([], c :: rest)
    else
      let (code, comment) := splitComment (if c = '"' then !inString else inString) rest
      (c :: code, comment)

def statementPieces (inString : Bool) : List Char → List (List Char)
  | [] => [[]]
  | c :: rest =>
    if c = ':' && !inString && rest.head? != some '=' then [] :: statementPieces inString rest
    else consPiece c (statementPieces (if c = '"' then !inString else inString) rest)

/-- The statement is a comment introduced by `Rem`. -/
def isRemark (statement : List Char) : Bool :=
  let lowered := lowerAscii statement
  lowered == "rem".toList || "rem ".toList.isPrefixOf lowered || "rem\t".toList.isPrefixOf lowered

namespace LogicalLine

/-- The place of a statement: exact on one physical line, up to the end of the line otherwise. -/
def place (line : LogicalLine) (span : Span) : Selection :=
  let column := (takeBytes span.offset line.text).length + 1
  if line.isSingle then .onLine line.startLine column span.text.length
  else ⟨line.startLine, column, line.endLine, line.endColumn⟩

/-- The code pieces of a line before any comment is taken off it. -/
def codeSpans (line : LogicalLine) : List Span :=
  locatePieces 0 (statementPieces false (splitComment false line.text).1)

def statements (line : LogicalLine) : List Segment :=
  (line.codeSpans.takeWhile fun span ↦ !isRemark span.text).map fun span ↦
    ⟨span.text, line.place span⟩

/-- The comment of a line: a remark takes the rest of the line, whatever it holds. -/
def comment? (line : LogicalLine) : Option Segment :=
  let segmentFrom (offset marker : Nat) : Segment :=
    let before := takeBytes offset line.text
    let marked := takeBytes (offset + marker) line.text
    ⟨trim (line.text.drop marked.length),
      ⟨line.startLine, before.length + 1, line.endLine, line.endColumn⟩⟩
  match line.codeSpans.dropWhile fun span ↦ !isRemark span.text with
  | remark :: _ => some (segmentFrom remark.offset 3)
  | [] =>
    match splitComment false line.text with
    | (_, []) => none
    | (code, _ :: _) => some (segmentFrom (byteLength code) 1)

/-- The statements of a line, then its comment. -/
def items (line : LogicalLine) : List LineItem :=
  line.statements.map .statement ++ (line.comment?.map .comment).toList

end LogicalLine

def lineItems (source : List Char) : List LineItem :=
  (logicalLines source).flatMap (·.items)

end VbaLint.Source
