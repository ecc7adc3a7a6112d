import VbaLint.Source.Segment
import VbaLint.Statement.Shape
import VbaLint.Statement.Variable
import VbaLint.Text.Search
import VbaLint.Tree.Basic

/-!
# Nodes of one statement

How a statement of each shape is laid out below its node. Declared names and assigned plain names
become identifiers of their own; all other text becomes an expression whose identifiers are the words
that may refer to declarations.
-/

namespace VbaLint.Tree.SyntaxTree

open Source Statement Text

/-- The place of a stretch of a statement, whose columns count characters. In a statement of several lines
all places are given on the first one. -/
def placeIn (statement : Segment) (span : Span) : Selection :=
  let before := takeBytes span.offset statement.text
  let upTo := takeBytes (span.offset + byteLength span.text) statement.text
  .onLine statement.selection.startLine (statement.selection.startColumn + before.length)
    (upTo.length - before.length)

def addSpan (tree : SyntaxTree) (parent : Nat) (kind : NodeKind) (statement : Segment)
    (span : Span) : SyntaxTree :=
  tree.addChild parent kind (placeIn statement span) (String.ofList span.text)

def addExpression (tree : SyntaxTree) (parent : Nat) (statement : Segment) (span : Span) :
    SyntaxTree :=
  (occurrences span.text).foldl
    (fun grown word ↦
      grown.addSpan tree.size .identifier statement ⟨word.text, span.offset + word.offset⟩)
    (tree.addSpan parent .expression statement span)

/-- Add one item of a constant statement: its name, then its value. -/
def addConstant (tree : SyntaxTree) (parent : Nat) (statement : Segment) (item : Span) :
    SyntaxTree :=
  let node := tree.size
  let name := item.text.takeWhile isIdentifierChar
  let tree := tree.addSpan parent .constSubStmt statement item
  let tree :=
    if name.isEmpty then tree else tree.addSpan node .identifier statement ⟨name, item.offset⟩
  match item.text.dropWhile (· != '=') with
  | [] => tree
  | _ :: behind =>
    let value := trimStart behind
    tree.addExpression node statement ⟨value, item.offset + (byteLength item.text - byteLength value)⟩

def addVariable (tree : SyntaxTree) (parent : Nat) (statement : Segment) (item : Span) :
    SyntaxTree :=
  let node := tree.size
  let tree := tree.addSpan parent .variableSubStmt statement item
  match declaredItem? item.text with
  | none => tree
  | some declared =>
    tree.addSpan node .identifier statement
      ⟨declared.name, item.offset + offsetOf declared.name item.text⟩

def addParameter (tree : SyntaxTree) (parent : Nat) (statement : Segment) (item : Span) :
    SyntaxTree :=
  let node := tree.size
  let tree := tree.addSpan parent .arg statement item
  match parameter? item.text with
  | none => tree
  | some declared =>
    tree.addSpan node .identifier statement
      ⟨declared.name, item.offset + offsetOf declared.name item.text⟩

def addItems (tree : SyntaxTree) (add : SyntaxTree → Span → SyntaxTree) (list : Span) : SyntaxTree :=
  (items list.text).foldl
    (fun grown item ↦ add grown ⟨item.text, list.offset + item.offset⟩) tree

/-- Add the two sides of an assignment. A member or an indexed target is an expression: it reads the
object that it goes through. -/
def addAssignment (tree : SyntaxTree) (parent : Nat) (statement : Segment)
    (assignment : Assignment) : SyntaxTree :=
  let tree :=
    match plainName? assignment.target.text with
    | some name => tree.addSpan parent .identifier statement ⟨name, assignment.target.offset⟩
    | none => tree.addExpression parent statement assignment.target
  tree.addExpression parent statement assignment.value

/-- The kind of the node of a statement that is no header of a member. -/
def statementKind : Shape → NodeKind
  | .option kind => kind
  | .attribute => .attributeStmt
  | .blockStart kind _ => kind
  | .constants _ => .constStmt
  | .variables _ => .variableStmt
  | .setAssignment _ => .setStmt
  | .letAssignment _ => .letStmt
  | .call _ => .callStmt
  | .declare | .procedureEnd | .procedureStart _ | .blockEnd | .other => .otherStmt

/-- Add the node of a statement that is no header of a member, and what is below it. -/
def addStatement (tree : SyntaxTree) (parent : Nat) (shape : Shape) (statement : Segment) :
    SyntaxTree :=
  let node := tree.size
  let tree :=
    tree.addChild parent (statementKind shape) statement.selection (String.ofList statement.text)
  match shape with
  | .option _ | .attribute | .declare => tree
  | .blockStart _ name => tree.addSpan node .identifier statement name
  | .constants list => tree.addItems (fun grown item ↦ grown.addConstant node statement item) list
  | .variables list => tree.addItems (fun grown item ↦ grown.addVariable node statement item) list
  | .setAssignment assignment | .letAssignment assignment =>
    tree.addAssignment node statement assignment
  | .call expression => tree.addExpression node statement expression
  | .procedureEnd | .procedureStart _ | .blockEnd | .other =>
    tree.addExpression node statement ⟨statement.text, 0⟩

def addMember (tree : SyntaxTree) (parent : Nat) (signature : Signature) (statement : Segment) :
    SyntaxTree :=
  let node := tree.size
  let tree := tree.addChild parent signature.kind statement.selection (String.ofList statement.text)
  let tree := tree.addSpan node .identifier statement signature.name
  match signature.parameters with
  | none => tree
  | some list => tree.addItems (fun grown item ↦ grown.addParameter node statement item) list

end VbaLint.Tree.SyntaxTree
