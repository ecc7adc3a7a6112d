import VbaLint.Annotation
import VbaLint.Module.Header
import VbaLint.Module.StatementTree

/-!
# Reading a module

A module is read statement by statement and reading never fails. The tree has two sections below its
root: declarations, where each module-level statement stands in an element of its own, and the body,
which holds the members. A member takes all statements up to its `End` line or the next header into
its block. The lines of an open `Type` or `Enum` block make no nodes. Directives wait for the node of
the statement after them, except those that always concern the module.
-/

namespace VbaLint

open Source Statement Tree

/-- A module that has been read. -/
structure ParsedModule where
  tree : SyntaxTree
  annotations : List Annotation

/-- A member whose `End` line has not been read. -/
structure OpenProcedure where
  node : Nat
  block : Nat
  deriving DecidableEq, Repr

/-- The state of reading a module. -/
structure Reading where
  tree : SyntaxTree
  procedure : Option OpenProcedure
  typeBlock : Option Nat
  header : Header
  /-- Directives that wait for the next statement, with the places of their comments. -/
  pending : List (Directive × Selection)
  annotations : List Annotation

namespace Reading

def declarations : Nat := 1

def body : Nat := 2

/-- The place of a whole module, which is at least one line of one column. -/
def moduleSelection (source : List Char) : Selection :=
  let lines := physicalLines source
  ⟨1, 1, max lines.length 1, max ((lines.getLast?.map (·.length)).getD 0) 1⟩

/-- The state before the first line of the module `component`. -/
def start (component : String) (source : List Char) : Reading where
  tree :=
    ((SyntaxTree.ofRoot component (moduleSelection source)).addChild 0 .moduleDeclarations .unset
      "").addChild 0 .moduleBody .unset ""
  procedure := none
  typeBlock := none
  header := .possible
  pending := []
  annotations := []

def comment (reading : Reading) (segment : Segment) : Reading :=
  match directive? segment.text with
  | none => reading
  | some directive =>
    match directive with
    | .ignoreModule _ | .folder _ =>
      { reading with
        annotations := reading.annotations ++ [⟨directive, .module, segment.selection⟩] }
    | .ignore _ | .description _ =>
      { reading with pending := reading.pending ++ [(directive, segment.selection)] }

def attach (reading : Reading) (node : Nat) : Reading :=
  { reading with
    pending := []
    annotations :=
      reading.annotations ++
        reading.pending.map fun (directive, selection) ↦ ⟨directive, .node node, selection⟩ }

/-- The range of a node, `unset` for an unknown one. -/
def selectionOf (tree : SyntaxTree) (node : Nat) : Selection :=
  ((tree.node? node).map (·.selection)).getD .unset

/-- Leave the open member, whose range the body takes in. -/
def closeProcedure (reading : Reading) : Reading :=
  match reading.procedure with
  | none => reading
  | some opened =>
    { reading with
      tree := reading.tree.widen body (selectionOf reading.tree opened.node)
      procedure := none }

/-- Read a statement while the block `block` is open. -/
def blockLine (reading : Reading) (block : Nat) (segment : Segment) : Reading :=
  let tree := reading.tree.widen block segment.selection
  let reading := { reading with tree }.attach block
  match shapeOf segment.text with
  | .blockEnd =>
    let selection := selectionOf tree block
    let tree :=
      match tree.parent? block with
      | some element => tree.widen element selection
      | none => tree
    { reading with tree := tree.widen declarations selection, typeBlock := none }
  | _ => reading

def beginProcedure (reading : Reading) (signature : Signature) (segment : Segment) : Reading :=
  let reading := reading.closeProcedure
  let node := reading.tree.size
  let tree := reading.tree.addMember body signature segment
  let block := tree.size
  let tree := (tree.addChild node .block .unset "").widen body segment.selection
  { reading.attach node with tree, procedure := some ⟨node, block⟩ }

/-- Read the `End` line of the open member. Directives before it have no statement to apply to. -/
def endProcedure (reading : Reading) (opened : OpenProcedure) (segment : Segment) : Reading :=
  { reading with
    pending := []
    tree := reading.tree.widen opened.node segment.selection }.closeProcedure

/-- Make room for a statement: in the block of the open member, else in a new element of the
declarations. Gives the tree and the node to put the statement under. -/
def statementParent (reading : Reading) (selection : Selection) : SyntaxTree × Nat :=
  match reading.procedure with
  | some opened =>
    ((reading.tree.widen opened.block selection).widen opened.node selection, opened.block)
  | none =>
    ((reading.tree.addChild declarations .moduleDeclarationsElement selection "").widen declarations
      selection, reading.tree.size)

/-- Read a statement that neither opens nor closes a member. -/
def plainStatement (reading : Reading) (shape : Shape) (segment : Segment) : Reading :=
  let (tree, parent) := reading.statementParent segment.selection
  let node := tree.size
  let typeBlock :=
    match shape with
    | .blockStart _ _ => some node
    | _ => reading.typeBlock
  { reading with tree := tree.addStatement parent shape segment, typeBlock }.attach node

def codeStatement (reading : Reading) (segment : Segment) : Reading :=
  match reading.typeBlock with
  | some block => reading.blockLine block segment
  | none =>
    match shapeOf segment.text, reading.procedure with
    | .procedureStart signature, _ => reading.beginProcedure signature segment
    | .procedureEnd, some opened => reading.endProcedure opened segment
    | shape, _ => reading.plainStatement shape segment

def statement (reading : Reading) (segment : Segment) : Reading :=
  let (header, inHeader) := reading.header.next segment.text
  let reading := { reading with header }
  if inHeader then reading else reading.codeStatement segment

def item (reading : Reading) : LineItem → Reading
  | .statement segment => reading.statement segment
  | .comment segment => reading.comment segment

end Reading

def readModule (component : String) (text : String) : ParsedModule :=
  let source := text.toList
  let final := (lineItems source).foldl Reading.item (.start component source)
  ⟨final.tree, final.annotations⟩

end VbaLint
