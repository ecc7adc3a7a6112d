import Mathlib.Data.List.Forall2
import VbaLint.Module.Reading
import VbaLint.Proofs.Tree.Growth

/-!
# The statements of a module and their nodes

Reading a module loses no statement and invents none. Which statements make no node depends on three
things that may be open: the file header, a member and a block of declarations. Every other statement
makes one node, in order, and no other node stands for a statement.
-/

namespace VbaLint

open Source Statement Text Tree

namespace Statement

/-! ## Kinds of statements -/

def Shape.nodeKind : Shape → NodeKind
  | .procedureStart signature => signature.kind
  | shape => SyntaxTree.statementKind shape

/-- The kind of a statement that is no header does not depend on members. -/
theorem Shape.nodeKind_eq {shape : Shape} (h : ∀ signature, shape ≠ .procedureStart signature) :
    shape.nodeKind = SyntaxTree.statementKind shape := by
  cases shape with
  | procedureStart signature => exact absurd rfl (h signature)
  | _ => rfl

def Shape.opensBlock : Shape → Bool
  | .blockStart _ _ => true
  | _ => false

theorem signature?_of_shapeOf {text : List Char} {signature : Signature}
    (h : shapeOf text = .procedureStart signature) : signature? text = some signature := by
  unfold shapeOf at h
  repeat' split at h
  all_goals cases h
  assumption

theorem optionKind?_of_shapeOf {text : List Char} {kind : NodeKind}
    (h : shapeOf text = .option kind) : optionKind? text = some kind := by
  unfold shapeOf at h
  repeat' split at h
  all_goals cases h
  assumption

theorem blockStart?_of_shapeOf {text : List Char} {kind : NodeKind} {name : Span}
    (h : shapeOf text = .blockStart kind name) : blockStart? text = some (kind, name) := by
  unfold shapeOf at h
  repeat' split at h
  all_goals cases h
  assumption

theorem isProcedure_memberKind (word : List Char) : (memberKind word).isProcedure = true := by
  unfold memberKind
  dsimp only
  repeat' split
  all_goals rfl

/-- Only members have headers. -/
theorem isProcedure_of_signature? {text : List Char} {signature : Signature}
    (h : signature? text = some signature) : signature.kind.isProcedure = true := by
  unfold signature? at h
  simp only [bind, Option.bind_eq_some_iff] at h
  obtain ⟨_, -, _, -, h⟩ := h
  split at h
  · cases h
    exact isProcedure_memberKind _
  · split at h
    · cases h
    · obtain ⟨_, -, h⟩ := Option.bind_eq_some_iff.1 h
      cases h
      exact isProcedure_memberKind _

/-- There are four statements that set an option. -/
theorem optionKind?_cases {text : List Char} {kind : NodeKind} (h : optionKind? text = some kind) :
    kind = .optionExplicitStmt ∨ kind = .optionBaseStmt ∨ kind = .optionPrivateModuleStmt ∨
      kind = .optionCompareStmt := by
  unfold optionKind? at h
  simp only [bind, Option.bind_eq_some_iff] at h
  obtain ⟨_, -, h⟩ := h
  repeat' split at h
  all_goals cases h
  all_goals simp

/-- A block is a type or an enumeration. -/
theorem blockStart?_cases {text : List Char} {kind : NodeKind} {name : Span}
    (h : blockStart? text = some (kind, name)) : kind = .typeStmt ∨ kind = .enumStmt := by
  unfold blockStart? at h
  simp only [bind, Option.bind_eq_some_iff] at h
  obtain ⟨⟨word, rest⟩, hword, ⟨_, behind⟩, -, h⟩ := h
  dsimp only at h
  split at h
  · cases h
    rcases Option.or_eq_some_iff.1 hword with htype | ⟨-, henum⟩
    · obtain ⟨_, -, heq⟩ := Option.map_eq_some_iff.1 htype
      cases heq
      exact .inl rfl
    · obtain ⟨_, -, heq⟩ := Option.map_eq_some_iff.1 henum
      cases heq
      exact .inr rfl
  · cases h

end Statement

namespace Tree.NodeKind

/-- The kinds of members, of `Type` and of `Enum`: the range of such a node takes in further lines. -/
def spansLines (kind : NodeKind) : Bool :=
  kind.isProcedure || kind == typeStmt || kind == enumStmt

/-- The kinds of nodes whose ranges are ever widened. -/
def isWidened (kind : NodeKind) : Bool :=
  kind.spansLines || kind.holdsStatements || kind == moduleDeclarations

theorem isWidened_of_holdsStatements {kind : NodeKind} (h : kind.holdsStatements = true) :
    kind.isWidened = true := by
  simp [isWidened, h]

theorem isWidened_of_spansLines {kind : NodeKind} (h : kind.spansLines = true) :
    kind.isWidened = true := by
  simp [isWidened, h]

theorem isWidened_of_isProcedure {kind : NodeKind} (h : kind.isProcedure = true) :
    kind.isWidened = true := by
  simp [isWidened, spansLines, h]

theorem not_holdsStatements_of_spansLines {kind : NodeKind} (h : kind.spansLines = true) :
    kind.holdsStatements = false := by
  cases kind <;> first | rfl | cases h

end Tree.NodeKind

namespace Statement

/-- The node of a statement holds no statements, and its range is only widened if it spans lines. -/
theorem nodeKind_shapeOf (text : List Char) :
    (shapeOf text).nodeKind.holdsStatements = false ∧
      ((shapeOf text).nodeKind.isWidened = true → (shapeOf text).nodeKind.spansLines = true) := by
  cases hshape : shapeOf text with
  | procedureStart signature =>
    have hspans : signature.kind.spansLines = true := by
      simp [NodeKind.spansLines, isProcedure_of_signature? (signature?_of_shapeOf hshape)]
    exact ⟨NodeKind.not_holdsStatements_of_spansLines hspans, fun _ ↦ hspans⟩
  | option kind =>
    rcases optionKind?_cases (optionKind?_of_shapeOf hshape) with rfl | rfl | rfl | rfl <;>
      exact ⟨rfl, fun h ↦ h⟩
  | blockStart kind name =>
    rcases blockStart?_cases (blockStart?_of_shapeOf hshape) with rfl | rfl <;>
      exact ⟨rfl, fun h ↦ h⟩
  | _ => exact ⟨rfl, fun h ↦ h⟩

end Statement

/-! ## Nodes and statements -/

namespace Tree.SyntaxTree

variable {tree : SyntaxTree} {id parent : Nat} {segment : Segment}

/-- The node stands for the statement: it has its text and the kind of its shape, and its place unless
the node spans further lines. -/
def Renders (tree : SyntaxTree) (id : Nat) (segment : Segment) : Prop :=
  ∃ node, tree.node? id = some node ∧ node.kind = (shapeOf segment.text).nodeKind ∧
    node.text = String.ofList segment.text ∧
      (node.kind.spansLines = true ∨ node.selection = segment.selection)

theorem renders_iff_bare? : tree.Renders id segment ↔
    ∃ node, tree.bare? id = some node ∧ node.kind = (shapeOf segment.text).nodeKind ∧
      node.text = String.ofList segment.text ∧
        (node.kind.spansLines = true ∨ node.selection = segment.selection) := by
  constructor
  · rintro ⟨node, hnode, hfacts⟩
    exact ⟨node.bare, by rw [bare?, hnode, Option.map_some], hfacts⟩
  · rintro ⟨bare, hbare, hfacts⟩
    obtain ⟨node, hnode, rfl⟩ := Option.map_eq_some_iff.1 hbare
    exact ⟨node, hnode, hfacts⟩

theorem Renders.lt_size (h : tree.Renders id segment) : id < tree.size := by
  obtain ⟨node, hnode, -⟩ := renders_iff_bare?.1 h
  rw [← isSome_bare?_iff, hnode]
  rfl

/-- A node stands for a statement by what it is without its children. -/
theorem Renders.of_bare?_eq {grown : SyntaxTree} (h : tree.Renders id segment)
    (heq : grown.bare? id = tree.bare? id) : grown.Renders id segment := by
  rw [renders_iff_bare?] at h ⊢
  rw [heq]
  exact h

/-- Widening a block or a member leaves what it stands for. -/
theorem Renders.widen (h : tree.Renders id segment) {widened : Nat} {kind : NodeKind}
    (hkind : tree.kind? widened = some kind) (hwidened : kind.isWidened = true)
    (selection : Selection) : (tree.widen widened selection).Renders id segment := by
  rw [renders_iff_bare?] at h ⊢
  obtain ⟨node, hnode, hshape, htext, hplace⟩ := h
  rw [bare?_widen, hnode]
  by_cases heq : widened = id
  · subst heq
    rw [kind?_eq_bare?, hnode] at hkind
    cases hkind
    refine ⟨node.widen selection, if_pos rfl, hshape, htext, .inl ?_⟩
    change node.kind.isWidened = true at hwidened
    change node.kind.spansLines = true
    rw [hshape] at hwidened ⊢
    exact (nodeKind_shapeOf segment.text).2 hwidened
  · exact ⟨node, if_neg heq, hshape, htext, hplace⟩

theorem renders_addChild_self (hparent : parent < tree.size) (segment : Segment) :
    (tree.addChild parent (shapeOf segment.text).nodeKind segment.selection
      (String.ofList segment.text)).Renders tree.size segment :=
  renders_iff_bare?.2 ⟨_, bare?_addChild_self hparent, rfl, rfl, .inr rfl⟩

/-- The statement nodes stand for some statements, each for one, in order. -/
def RendersAll (tree : SyntaxTree) (segments : List Segment) : Prop :=
  List.Forall₂ tree.Renders tree.statementNodes segments

variable {segments : List Segment}

/-- The parts of a statement leave what the nodes stand for. -/
theorem RendersAll.addsParts {start : Nat} {grown : SyntaxTree} (h : tree.RendersAll segments)
    (hgrown : AddsParts start tree grown) : grown.RendersAll segments := by
  unfold RendersAll
  rw [hgrown.statementNodes_eq]
  refine List.Forall₂.imp ?_ h
  intro id segment hrenders
  exact hrenders.of_bare?_eq (hgrown.bare?_eq hrenders.lt_size)

/-- The nodes of all statements stay when a block or a member is widened. -/
theorem RendersAll.widen (h : tree.RendersAll segments) {kind : NodeKind}
    (hkind : tree.kind? id = some kind) (hwidened : kind.isWidened = true)
    (selection : Selection) : (tree.widen id selection).RendersAll segments := by
  unfold RendersAll
  rw [statementNodes_widen]
  refine List.Forall₂.imp ?_ h
  intro other segment hrenders
  exact hrenders.widen hkind hwidened selection

/-- A new statement node comes after those before it. -/
theorem RendersAll.addStatement (h : tree.RendersAll segments) {above : NodeKind}
    (habove : tree.kind? parent = some above) (hholds : above.holdsStatements = true)
    (segment : Segment) :
    (tree.addChild parent (shapeOf segment.text).nodeKind segment.selection
      (String.ofList segment.text)).RendersAll (segments ++ [segment]) := by
  have hlt := lt_size_of_kind? habove
  unfold RendersAll
  rw [statementNodes_addChild habove, hholds, if_pos rfl]
  refine List.rel_append ?_ (.cons (renders_addChild_self hlt segment) .nil)
  refine List.Forall₂.imp ?_ h
  intro id segment hrenders
  exact hrenders.of_bare?_eq (bare?_addChild_of_lt hrenders.lt_size)

/-! ### Laying out a statement -/

/-- The node of a statement takes parts. -/
theorem takesParts_statement (hparent : parent < tree.size) (segment : Segment) :
    (tree.addChild parent (shapeOf segment.text).nodeKind segment.selection
      (String.ofList segment.text)).TakesParts tree.size tree.size :=
  ⟨Nat.le_refl _, _, kind?_addChild_self hparent, (nodeKind_shapeOf segment.text).1⟩

/-- All that is laid out below the node of a statement are parts. -/
theorem addsParts_addStatement {shape : Shape}
    (hnode : (tree.addChild parent (statementKind shape) segment.selection
      (String.ofList segment.text)).TakesParts tree.size tree.size) :
    AddsParts tree.size
      (tree.addChild parent (statementKind shape) segment.selection (String.ofList segment.text))
      (tree.addStatement parent shape segment) := by
  unfold SyntaxTree.addStatement
  dsimp only
  generalize tree.addChild parent (statementKind shape) segment.selection
    (String.ofList segment.text) = begun at hnode ⊢
  cases shape with
  | option => exact .refl
  | «attribute» => exact .refl
  | declare => exact .refl
  | blockStart => exact addsParts_addSpan hnode _ _ _
  | constants list =>
    exact addsParts_addItems hnode (fun _ item h ↦ addsParts_addConstant h _ item) list
  | «variables» list =>
    exact addsParts_addItems hnode (fun _ item h ↦ addsParts_addVariable h _ item) list
  | setAssignment assignment => exact addsParts_addAssignment hnode _ assignment
  | letAssignment assignment => exact addsParts_addAssignment hnode _ assignment
  | call expression => exact addsParts_addExpression hnode _ expression
  | _ => exact addsParts_addExpression hnode _ _

/-- The identifier and the parameters of a member are parts of it. -/
theorem addsParts_addMember {signature : Signature}
    (hnode : (tree.addChild parent signature.kind segment.selection
      (String.ofList segment.text)).TakesParts tree.size tree.size) :
    AddsParts tree.size
      (tree.addChild parent signature.kind segment.selection (String.ofList segment.text))
      (tree.addMember parent signature segment) := by
  have hname := addsParts_addSpan hnode segment .identifier signature.name
  unfold addMember
  dsimp only
  split
  · exact hname
  · next list _ =>
    exact hname.trans (addsParts_addItems (hname.takesParts hnode)
      (fun _ item h ↦ addsParts_addParameter h _ item) list)

end Tree.SyntaxTree

/-! ## What is open -/

/-- What decides whether a statement makes a node: where reading stands in a file header, whether a
member is open, and whether a block of declarations is. -/
structure Openings where
  header : Header
  procedure : Bool
  block : Bool
  deriving DecidableEq, Repr

namespace Openings

def start : Openings := ⟨.possible, false, false⟩

/-- What is open after a statement behind the file header, and whether the statement makes a node.
None is made by the lines of an open block with the line that ends it, and by the line that ends an
open member. -/
def nextCode (openings : Openings) (statement : List Char) : Openings × Bool :=
  if openings.block then ({ openings with block := shapeOf statement != .blockEnd }, false)
  else
    match shapeOf statement with
    | .procedureStart _ => ({ openings with procedure := true }, true)
    | .procedureEnd => ({ openings with procedure := false }, !openings.procedure)
    | .blockStart _ _ => ({ openings with block := true }, true)
    | _ => (openings, true)

/-- What is open after a statement, and whether the statement makes a node. The lines of a file header
make none. -/
def next (openings : Openings) (statement : List Char) : Openings × Bool :=
  let (header, inHeader) := openings.header.next statement
  if inHeader then ({ openings with header }, false)
  else { openings with header }.nextCode statement

def kept : Openings → List Segment → List Segment
  | _, [] => []
  | openings, segment :: rest =>
    if (openings.next segment.text).2 then segment :: (openings.next segment.text).1.kept rest
    else (openings.next segment.text).1.kept rest

end Openings

/-- The statement that stands at a place of a line, unless it is a comment. -/
def Source.LineItem.statement? : LineItem → Option Segment
  | .statement segment => some segment
  | .comment _ => none

def statementsOf (source : List Char) : List Segment :=
  (lineItems source).filterMap (·.statement?)

namespace Reading

def openings (reading : Reading) : Openings :=
  ⟨reading.header, reading.procedure.isSome, reading.typeBlock.isSome⟩

/-- The sections of the tree stand, and so do the open member and the open block. -/
structure Stands (tree : SyntaxTree) (procedure : Option OpenProcedure) (typeBlock : Option Nat) :
    Prop where
  declarations_kind : tree.kind? declarations = some .moduleDeclarations
  body_kind : tree.kind? body = some .moduleBody
  procedure_kind {opened : OpenProcedure} : procedure = some opened →
    tree.kind? opened.block = some .block ∧
      ∃ kind, tree.kind? opened.node = some kind ∧ kind.isProcedure = true
  block_kind {block : Nat} : typeBlock = some block →
    tree.isStatement block = true ∧
      ∃ kind, tree.kind? block = some kind ∧ kind.spansLines = true

namespace Stands

variable {tree : SyntaxTree} {procedure : Option OpenProcedure} {typeBlock : Option Nat}

/-- Kinds and parents of nodes do not change, so what stands goes on to stand. -/
theorem mono (h : Stands tree procedure typeBlock) {grown : SyntaxTree}
    (hkind : ∀ id kind, tree.kind? id = some kind → grown.kind? id = some kind)
    (hstatement : ∀ id, tree.isStatement id = true → grown.isStatement id = true) :
    Stands grown procedure typeBlock where
  declarations_kind := hkind _ _ h.declarations_kind
  body_kind := hkind _ _ h.body_kind
  procedure_kind hopened := by
    obtain ⟨hblock, kind, hnode, hprocedure⟩ := h.procedure_kind hopened
    exact ⟨hkind _ _ hblock, kind, hkind _ _ hnode, hprocedure⟩
  block_kind hblock := by
    obtain ⟨hin, kind, hnode, hspans⟩ := h.block_kind hblock
    exact ⟨hstatement _ hin, kind, hkind _ _ hnode, hspans⟩

/-- Whatever is added, what is open stays open. -/
theorem addChild (h : Stands tree procedure typeBlock) (parent : Nat) (kind : NodeKind)
    (selection : Selection) (text : String) :
    Stands (tree.addChild parent kind selection text) procedure typeBlock := by
  refine h.mono ?_ ?_
  · intro id known hknown
    rw [SyntaxTree.kind?_addChild_of_lt (SyntaxTree.lt_size_of_kind? hknown)]
    exact hknown
  · intro id hin
    rw [SyntaxTree.isStatement_addChild_of_lt (SyntaxTree.lt_size_of_isStatement hin)]
    exact hin

theorem addsParts (h : Stands tree procedure typeBlock) {start : Nat} {grown : SyntaxTree}
    (hgrown : SyntaxTree.AddsParts start tree grown) : Stands grown procedure typeBlock := by
  induction hgrown with
  | refl => exact h
  | add _ _ kind selection text ih => exact ih.addChild _ kind selection text

/-- Widening leaves what is open. -/
theorem widen (h : Stands tree procedure typeBlock) (id : Nat) (selection : Selection) :
    Stands (tree.widen id selection) procedure typeBlock := by
  refine h.mono ?_ ?_
  · intro other known hknown
    rw [SyntaxTree.kind?_widen]
    exact hknown
  · intro other hin
    rw [SyntaxTree.isStatement_widen]
    exact hin

theorem withoutProcedure (h : Stands tree procedure typeBlock) : Stands tree none typeBlock :=
  ⟨h.declarations_kind, h.body_kind, fun hopened ↦ (by cases hopened), h.block_kind⟩

theorem withoutBlock (h : Stands tree procedure typeBlock) : Stands tree procedure none :=
  ⟨h.declarations_kind, h.body_kind, h.procedure_kind, fun hblock ↦ (by cases hblock)⟩

/-- A member may be opened whose header stands in the tree. -/
theorem withProcedure (h : Stands tree procedure typeBlock) {opened : OpenProcedure}
    {kind : NodeKind} (hblock : tree.kind? opened.block = some .block)
    (hnode : tree.kind? opened.node = some kind) (hprocedure : kind.isProcedure = true) :
    Stands tree (some opened) typeBlock := by
  refine ⟨h.declarations_kind, h.body_kind, ?_, h.block_kind⟩
  rintro _ ⟨⟩
  exact ⟨hblock, kind, hnode, hprocedure⟩

/-- A block may be opened whose first line stands in the tree. -/
theorem withBlock (h : Stands tree procedure typeBlock) {block : Nat} {kind : NodeKind}
    (hin : tree.isStatement block = true) (hblock : tree.kind? block = some kind)
    (hspans : kind.spansLines = true) : Stands tree procedure (some block) := by
  refine ⟨h.declarations_kind, h.body_kind, h.procedure_kind, ?_⟩
  rintro _ ⟨⟩
  exact ⟨hin, kind, hblock, hspans⟩

end Stands

/-- What has been built so far: the sections stand, and the nodes of statements stand for these. -/
structure Holds (reading : Reading) (segments : List Segment) : Prop where
  stands : Stands reading.tree reading.procedure reading.typeBlock
  renders : reading.tree.RendersAll segments

variable {reading : Reading} {segments : List Segment}

/-- No statement is held before anything is read. -/
theorem holds_start (component : String) (source : List Char) :
    (Reading.start component source).Holds [] := by
  let root := SyntaxTree.ofRoot component (moduleSelection source)
  have hroot : root.kind? 0 = some .module := rfl
  have hplace : root.TakesParts 0 0 := ⟨Nat.le_refl _, _, hroot, rfl⟩
  have hsections : SyntaxTree.AddsParts 0 root (Reading.start component source).tree := by
    have hfirst := SyntaxTree.AddsParts.refl.add hplace .moduleDeclarations .unset ""
    exact hfirst.add (hfirst.takesParts hplace) .moduleBody .unset ""
  have hrenders : root.RendersAll [] := .nil
  refine ⟨⟨rfl, rfl, fun h ↦ ?_, fun h ↦ ?_⟩, hrenders.addsParts hsections⟩
  · cases h
  · cases h

/-- Widening a block or a member leaves the statements that are held. -/
theorem Holds.widen (h : reading.Holds segments) {id : Nat} {kind : NodeKind}
    (hkind : reading.tree.kind? id = some kind) (hwidened : kind.isWidened = true)
    (selection : Selection) :
    ({ reading with tree := reading.tree.widen id selection } : Reading).Holds segments :=
  ⟨h.stands.widen id selection, h.renders.widen hkind hwidened selection⟩

/-- Leaving a member changes nothing but its being open. -/
theorem Holds.closeProcedure (h : reading.Holds segments) :
    reading.closeProcedure.Holds segments ∧
      reading.closeProcedure.openings = { reading.openings with procedure := false } := by
  unfold Reading.closeProcedure
  split
  · next hnone =>
    refine ⟨h, ?_⟩
    rw [openings, hnone]
    rfl
  · refine ⟨⟨(h.stands.widen body _).withoutProcedure, ?_⟩, rfl⟩
    exact h.renders.widen h.stands.body_kind rfl _

/-- The line that ends a member adds no statement and closes the member. -/
theorem Holds.endProcedure (h : reading.Holds segments) {opened : OpenProcedure}
    (hopened : reading.procedure = some opened) (segment : Segment) :
    (reading.endProcedure opened segment).Holds segments ∧
      (reading.endProcedure opened segment).openings =
        { reading.openings with procedure := false } := by
  obtain ⟨-, kind, hkind, hprocedure⟩ := h.stands.procedure_kind hopened
  have hwidened := NodeKind.isWidened_of_isProcedure hprocedure
  have hheld := h.widen hkind hwidened segment.selection
  exact Holds.closeProcedure ⟨hheld.stands, hheld.renders⟩

/-- A line of an open block adds no statement, and may close the block. -/
theorem Holds.blockLine (h : reading.Holds segments) {block : Nat}
    (hblock : reading.typeBlock = some block) (segment : Segment) :
    (reading.blockLine block segment).Holds segments ∧
      (reading.blockLine block segment).openings =
        { reading.openings with block := shapeOf segment.text != .blockEnd } := by
  obtain ⟨hin, kind, hkind, hspans⟩ := h.stands.block_kind hblock
  obtain ⟨element, above, hparent, habove, hholds⟩ := SyntaxTree.isStatement_iff.1 hin
  have hline := h.widen hkind (NodeKind.isWidened_of_spansLines hspans) segment.selection
  have hparent' : (reading.tree.widen block segment.selection).parent? block = some element := by
    rw [SyntaxTree.parent?_widen, hparent]
  have habove' : (reading.tree.widen block segment.selection).kind? element = some above := by
    rw [SyntaxTree.kind?_widen, habove]
  unfold Reading.blockLine
  simp only [hparent']
  split
  · next hend =>
    have hwidened := hline.widen habove' (NodeKind.isWidened_of_holdsStatements hholds)
      (selectionOf (reading.tree.widen block segment.selection) block)
    have hsection := hwidened.widen hwidened.stands.declarations_kind rfl
      (selectionOf (reading.tree.widen block segment.selection) block)
    rw [hend]
    exact ⟨⟨hsection.stands.withoutBlock, hsection.renders⟩, rfl⟩
  · next hother =>
    have hopen : (shapeOf segment.text != .blockEnd) = true := bne_iff_ne.2 hother
    refine ⟨⟨hline.stands, hline.renders⟩, ?_⟩
    rw [hopen, openings, openings, hblock]
    rfl

/-- A statement is laid out below a node that holds statements: its node comes last among those of
statements, and what stood goes on to stand. -/
theorem stands_of_laidOut {tree grown : SyntaxTree} {procedure : Option OpenProcedure}
    {typeBlock : Option Nat} (hstands : Stands tree procedure typeBlock)
    (hrenders : tree.RendersAll segments) {parent : Nat} {above : NodeKind}
    (habove : tree.kind? parent = some above) (hholds : above.holdsStatements = true)
    {segment : Segment}
    (hgrown : SyntaxTree.AddsParts tree.size
      (tree.addChild parent (shapeOf segment.text).nodeKind segment.selection
        (String.ofList segment.text)) grown) :
    Stands grown procedure typeBlock ∧ grown.RendersAll (segments ++ [segment]) ∧
      grown.kind? tree.size = some (shapeOf segment.text).nodeKind ∧
      grown.isStatement tree.size = true := by
  have hlt := SyntaxTree.lt_size_of_kind? habove
  have hnew : tree.size < (tree.addChild parent (shapeOf segment.text).nodeKind segment.selection
      (String.ofList segment.text)).size := by simp
  refine ⟨(hstands.addChild _ _ _ _).addsParts hgrown,
    (hrenders.addStatement habove hholds segment).addsParts hgrown, ?_, ?_⟩
  · rw [hgrown.kind?_eq hnew, SyntaxTree.kind?_addChild_self hlt]
  · rw [hgrown.isStatement_eq hnew, SyntaxTree.isStatement_addChild_self habove, hholds]

/-- The header of a member makes the node of a statement in the body. -/
theorem Holds.beginProcedure (h : reading.Holds segments)
    {segment : Segment} {signature : Signature}
    (hshape : shapeOf segment.text = .procedureStart signature) :
    (reading.beginProcedure signature segment).Holds (segments ++ [segment]) ∧
      (reading.beginProcedure signature segment).openings =
        { reading.openings with procedure := true } := by
  obtain ⟨hclosed, hopenings⟩ := h.closeProcedure
  unfold Reading.beginProcedure
  dsimp only
  generalize reading.closeProcedure = closed at hclosed hopenings ⊢
  have hlt := SyntaxTree.lt_size_of_kind? hclosed.stands.body_kind
  have hnode := SyntaxTree.takesParts_statement hlt segment
  have hmember : SyntaxTree.AddsParts closed.tree.size
      (closed.tree.addChild body (shapeOf segment.text).nodeKind segment.selection
        (String.ofList segment.text)) (closed.tree.addMember body signature segment) := by
    rw [hshape] at hnode ⊢
    exact SyntaxTree.addsParts_addMember hnode
  have hblock := SyntaxTree.AddsParts.refl.add (hmember.takesParts hnode) .block .unset ""
  obtain ⟨hstands, hrenders, hkind, -⟩ := stands_of_laidOut hclosed.stands hclosed.renders
    hclosed.stands.body_kind rfl (hmember.trans hblock)
  have hprocedure : (shapeOf segment.text).nodeKind.isProcedure = true := by
    rw [hshape]
    exact isProcedure_of_signature? (signature?_of_shapeOf hshape)
  refine ⟨⟨?_, hrenders.widen hstands.body_kind rfl segment.selection⟩, ?_⟩
  · refine (hstands.widen body segment.selection).withProcedure ?_ ?_ hprocedure
    · obtain ⟨-, _, hknown, -⟩ := hmember.takesParts hnode
      rw [SyntaxTree.kind?_widen, SyntaxTree.kind?_addChild_self (SyntaxTree.lt_size_of_kind? hknown)]
    · rw [SyntaxTree.kind?_widen, hkind]
  · exact congrArg (fun opened : Openings ↦ { opened with procedure := true }) hopenings

/-- A statement finds a holder below which it may stand. -/
theorem Holds.statementParent (h : reading.Holds segments) (selection : Selection) :
    Stands (reading.statementParent selection).1 reading.procedure reading.typeBlock ∧
      (reading.statementParent selection).1.RendersAll segments ∧
      ∃ above, (reading.statementParent selection).1.kind? (reading.statementParent selection).2 =
        some above ∧ above.holdsStatements = true := by
  unfold Reading.statementParent
  split
  · next opened hopened =>
    obtain ⟨hblock, kind, hkind, hprocedure⟩ := h.stands.procedure_kind hopened
    have hwidened := NodeKind.isWidened_of_isProcedure hprocedure
    have hinner := h.widen hblock rfl selection
    have hkind' : (reading.tree.widen opened.block selection).kind? opened.node = some kind := by
      rw [SyntaxTree.kind?_widen, hkind]
    have houter := hinner.widen hkind' hwidened selection
    refine ⟨houter.stands, houter.renders, .block, ?_, rfl⟩
    dsimp only
    rw [SyntaxTree.kind?_widen, SyntaxTree.kind?_widen, hblock]
  · have hplace : reading.tree.TakesParts 0 declarations :=
      ⟨Nat.zero_le _, _, h.stands.declarations_kind, rfl⟩
    have hlt := SyntaxTree.lt_size_of_kind? h.stands.declarations_kind
    have hstands := h.stands.addChild declarations .moduleDeclarationsElement selection ""
    have hrenders := h.renders.addsParts
      (SyntaxTree.AddsParts.refl.add hplace .moduleDeclarationsElement selection "")
    refine ⟨hstands.widen declarations selection,
      hrenders.widen hstands.declarations_kind rfl selection, .moduleDeclarationsElement, ?_, rfl⟩
    dsimp only
    rw [SyntaxTree.kind?_widen, SyntaxTree.kind?_addChild_self hlt]

/-- A statement that neither opens nor closes a member makes one node. -/
theorem Holds.plainStatement (h : reading.Holds segments) (hblock : reading.typeBlock = none)
    (segment : Segment) (hshape : ∀ signature, shapeOf segment.text ≠ .procedureStart signature) :
    (reading.plainStatement (shapeOf segment.text) segment).Holds (segments ++ [segment]) ∧
      (reading.plainStatement (shapeOf segment.text) segment).openings =
        { reading.openings with block := (shapeOf segment.text).opensBlock } := by
  obtain ⟨hstands, hrenders, above, habove, hholds⟩ := h.statementParent segment.selection
  unfold Reading.plainStatement
  dsimp only
  generalize reading.statementParent segment.selection = place at hstands hrenders habove ⊢
  have hlt := SyntaxTree.lt_size_of_kind? habove
  have hparts : SyntaxTree.AddsParts place.1.size
      (place.1.addChild place.2 (shapeOf segment.text).nodeKind segment.selection
        (String.ofList segment.text))
      (place.1.addStatement place.2 (shapeOf segment.text) segment) := by
    have hnode := SyntaxTree.takesParts_statement hlt segment
    rw [Shape.nodeKind_eq hshape] at hnode ⊢
    exact SyntaxTree.addsParts_addStatement hnode
  obtain ⟨hstands', hrenders', hkind, hin⟩ :=
    stands_of_laidOut hstands hrenders habove hholds hparts
  cases hcase : shapeOf segment.text with
  | blockStart kind name =>
    rw [hcase] at hstands' hrenders' hkind hin
    have hspans : (Shape.blockStart kind name).nodeKind.spansLines = true := by
      rcases blockStart?_cases (blockStart?_of_shapeOf hcase) with rfl | rfl <;> rfl
    exact ⟨⟨hstands'.withBlock hin hkind hspans, hrenders'⟩, rfl⟩
  | _ =>
    rw [hcase] at hstands' hrenders'
    refine ⟨⟨hstands', hrenders'⟩, ?_⟩
    rw [openings, openings, hblock]
    rfl

/-- A statement behind the file header does what it is said to do. -/
theorem Holds.codeStatement (h : reading.Holds segments) (segment : Segment) :
    (reading.codeStatement segment).Holds
        (if (reading.openings.nextCode segment.text).2 then segments ++ [segment] else segments) ∧
      (reading.codeStatement segment).openings = (reading.openings.nextCode segment.text).1 := by
  unfold Reading.codeStatement Openings.nextCode
  cases hblock : reading.typeBlock with
  | some block =>
    have hopen : reading.openings.block = true := by rw [openings, hblock]; rfl
    rw [if_pos hopen]
    exact h.blockLine hblock segment
  | none =>
    have hclosed : reading.openings.block = false := by rw [openings, hblock]; rfl
    have hsame : { reading.openings with block := false } = reading.openings := by rw [← hclosed]
    have hplain := h.plainStatement hblock segment
    rw [if_neg (Bool.eq_false_iff.1 hclosed)]
    dsimp only
    cases hshape : shapeOf segment.text with
    | procedureStart signature => exact h.beginProcedure hshape
    | blockStart kind name =>
      rw [hshape] at hplain
      exact hplain fun _ ↦ Shape.noConfusion
    | procedureEnd =>
      rw [hshape] at hplain
      cases hopened : reading.procedure with
      | some opened =>
        have hmember : reading.openings.procedure = true := by rw [openings, hopened]; rfl
        rw [hmember]
        exact h.endProcedure hopened segment
      | none =>
        have hmember : reading.openings.procedure = false := by rw [openings, hopened]; rfl
        obtain ⟨hheld, hopenings⟩ := hplain fun _ ↦ Shape.noConfusion
        rw [hmember]
        refine ⟨hheld, hopenings.trans ?_⟩
        rw [← hmember]
        exact hsame
    | _ =>
      rw [hshape] at hplain
      obtain ⟨hheld, hopenings⟩ := hplain fun _ ↦ Shape.noConfusion
      exact ⟨hheld, hopenings.trans hsame⟩

/-- A statement is held exactly if the openings keep it. -/
theorem Holds.statement (h : reading.Holds segments) (segment : Segment) :
    (reading.statement segment).Holds
        (if (reading.openings.next segment.text).2 then segments ++ [segment] else segments) ∧
      (reading.statement segment).openings = (reading.openings.next segment.text).1 := by
  rcases hnext : reading.header.next segment.text with ⟨header, inHeader⟩
  have hopened : reading.openings.header.next segment.text = (header, inHeader) := hnext
  have hheader : ({ reading with header } : Reading).Holds segments := ⟨h.stands, h.renders⟩
  simp only [Reading.statement, Openings.next, hnext, hopened]
  cases inHeader with
  | true => exact ⟨hheader, rfl⟩
  | false => exact hheader.codeStatement segment

/-- A statement is passed over in the file header, and read behind it. -/
theorem statement_eq (reading : Reading) (segment : Segment) :
    reading.statement segment =
      if (reading.header.next segment.text).2 then
        { reading with header := (reading.header.next segment.text).1 }
      else
        { reading with header := (reading.header.next segment.text).1 }.codeStatement segment := rfl

/-- A comment changes nothing but what waits and what is recorded. -/
theorem exists_comment_eq (reading : Reading) (segment : Segment) :
    ∃ pending annotations, reading.comment segment = { reading with pending, annotations } := by
  unfold Reading.comment
  split
  · exact ⟨_, _, rfl⟩
  · split <;> exact ⟨_, _, rfl⟩

/-- A comment adds no statement and opens nothing. -/
theorem Holds.comment (h : reading.Holds segments) (segment : Segment) :
    (reading.comment segment).Holds segments ∧
      (reading.comment segment).openings = reading.openings := by
  obtain ⟨pending, annotations, heq⟩ := exists_comment_eq reading segment
  rw [heq]
  exact ⟨⟨h.stands, h.renders⟩, rfl⟩

/-! ## Runs of reading -/

/-- Every step of reading keeps this relation of a reading to the statements that have made nodes, as long as
the statements that are read are allowed ones. -/
structure Follows (allowed : Segment → Prop) (P : Reading → List Segment → Prop) : Prop where
  holds {reading : Reading} {segments : List Segment} (h : P reading segments) : reading.Holds segments
  outside {reading : Reading} {segments : List Segment} (h : P reading segments) (header : Header)
    (pending : List (Directive × Selection)) (annotations : List Annotation) :
    P { reading with header, pending, annotations } segments
  code {reading : Reading} {segments : List Segment} (h : P reading segments) {segment : Segment}
    (hallowed : allowed segment) : P (reading.codeStatement segment)
      (if (reading.openings.nextCode segment.text).2 then segments ++ [segment] else segments)

namespace Follows

variable {allowed : Segment → Prop} {P : Reading → List Segment → Prop} (hfollows : Follows allowed P)
  (h : P reading segments)
include hfollows h

theorem comment (segment : Segment) : P (reading.comment segment) segments := by
  obtain ⟨pending, annotations, heq⟩ := exists_comment_eq reading segment
  rw [heq]
  exact hfollows.outside h reading.header pending annotations

/-- A property that each statement keeps is kept by all of them. -/
theorem statement {segment : Segment} (hallowed : allowed segment) : P (reading.statement segment)
    (if (reading.openings.next segment.text).2 then segments ++ [segment] else segments) := by
  have hmoved := hfollows.outside h (reading.header.next segment.text).1 reading.pending
    reading.annotations
  have hnext : reading.openings.next segment.text =
      if (reading.header.next segment.text).2 then
        ({ reading.openings with header := (reading.header.next segment.text).1 }, false)
      else
        { reading.openings with header := (reading.header.next segment.text).1 }.nextCode
          segment.text := rfl
  rw [statement_eq, hnext]
  split
  · exact hmoved
  · exact hfollows.code hmoved hallowed

/-- Reading some lines keeps the relation. -/
theorem foldl_item (items : List LineItem)
    (hallowed : ∀ segment ∈ items.filterMap (·.statement?), allowed segment) :
    P (items.foldl Reading.item reading)
      (segments ++ reading.openings.kept (items.filterMap (·.statement?))) := by
  induction items generalizing reading segments with
  | nil => simpa [Openings.kept] using h
  | cons item rest ih =>
    cases item with
    | comment segment =>
      have hrest := ih (hfollows.comment h segment) hallowed
      rw [((hfollows.holds h).comment segment).2] at hrest
      exact hrest
    | statement segment =>
      change ∀ other ∈ segment :: rest.filterMap (·.statement?), _ at hallowed
      have hrest := ih (hfollows.statement h (hallowed segment List.mem_cons_self))
        fun other hother ↦ hallowed other (List.mem_cons_of_mem segment hother)
      rw [((hfollows.holds h).statement segment).2] at hrest
      change P (rest.foldl Reading.item (reading.statement segment))
        (segments ++ reading.openings.kept (segment :: rest.filterMap (·.statement?)))
      rw [Openings.kept]
      split
      · next hkept =>
        rw [hkept, if_pos rfl, List.append_assoc] at hrest
        exact hrest
      · next hdropped =>
        rw [if_neg hdropped] at hrest
        exact hrest

end Follows

/-- The statements are held whatever is read. -/
theorem follows_holds : Follows (fun _ ↦ True) Holds where
  holds h := h
  outside h _ _ _ := ⟨h.stands, h.renders⟩
  code h segment _ := (h.codeStatement segment).1

/-- Reading some lines adds the nodes of those of their statements that make nodes. -/
theorem Holds.foldl_item (h : reading.Holds segments) (items : List LineItem) :
    (items.foldl Reading.item reading).Holds
      (segments ++ reading.openings.kept (items.filterMap (·.statement?))) :=
  follows_holds.foldl_item h items fun _ _ ↦ trivial

/-! ## What widening keeps -/

/-- This property of trees stays when the range of a node that may be widened is. -/
def KeptByWidening (P : SyntaxTree → Prop) : Prop :=
  ∀ ⦃tree : SyntaxTree⦄, P tree → ∀ ⦃id : Nat⦄ ⦃kind : NodeKind⦄, tree.kind? id = some kind →
    kind.isWidened = true → ∀ selection, P (tree.widen id selection)

namespace KeptByWidening

variable {P : SyntaxTree → Prop} (hwiden : KeptByWidening P)
include hwiden

/-- A property of growing trees is kept when a member is left. -/
theorem closeProcedure (hheld : reading.Holds segments) (h : P reading.tree) :
    P reading.closeProcedure.tree := by
  unfold Reading.closeProcedure
  split
  · exact h
  · exact hwiden h hheld.stands.body_kind rfl _

/-- A property of growing trees is kept by the line that ends a member. -/
theorem endProcedure (hheld : reading.Holds segments) (h : P reading.tree) {opened : OpenProcedure}
    (hopened : reading.procedure = some opened) (segment : Segment) :
    P (reading.endProcedure opened segment).tree := by
  obtain ⟨-, kind, hkind, hprocedure⟩ := hheld.stands.procedure_kind hopened
  have hwidened := NodeKind.isWidened_of_isProcedure hprocedure
  have hheld' := hheld.widen hkind hwidened segment.selection
  exact closeProcedure hwiden ⟨hheld'.stands, hheld'.renders⟩ (hwiden h hkind hwidened segment.selection)

/-- A property of growing trees is kept by a line of a block. -/
theorem blockLine (hheld : reading.Holds segments) (h : P reading.tree) {block : Nat}
    (hblock : reading.typeBlock = some block) (segment : Segment) :
    P (reading.blockLine block segment).tree := by
  obtain ⟨hin, kind, hkind, hspans⟩ := hheld.stands.block_kind hblock
  obtain ⟨element, above, hparent, habove, hholds⟩ := SyntaxTree.isStatement_iff.1 hin
  have hline := hwiden h hkind (NodeKind.isWidened_of_spansLines hspans) segment.selection
  have hparent' : (reading.tree.widen block segment.selection).parent? block = some element := by
    rw [SyntaxTree.parent?_widen, hparent]
  unfold Reading.blockLine
  simp only [hparent']
  split
  · have helement := hwiden hline (by rw [SyntaxTree.kind?_widen, habove])
      (NodeKind.isWidened_of_holdsStatements hholds)
      (selectionOf (reading.tree.widen block segment.selection) block)
    have hsection := hheld.stands.declarations_kind
    exact hwiden helement (by rw [SyntaxTree.kind?_widen, SyntaxTree.kind?_widen, hsection]) rfl _
  · exact hline

end KeptByWidening

/-! ## What reading keeps -/

/-- Reading keeps this property of trees: it stays when the range of a node that may be widened is, when
a member is laid out with its block, and when another statement is. -/
structure Preserves (P : SyntaxTree → Prop) : Prop where
  widen {tree : SyntaxTree} (h : P tree) {id : Nat} {kind : NodeKind}
    (hkind : tree.kind? id = some kind) (hwidened : kind.isWidened = true)
    (selection : Selection) : P (tree.widen id selection)
  member {reading : Reading} {segments : List Segment} (hheld : reading.Holds segments)
    (h : P reading.tree) {segment : Segment} {signature : Signature}
    (hshape : shapeOf segment.text = .procedureStart signature) :
    P ((reading.tree.addMember body signature segment).addChild reading.tree.size .block .unset "")
  statement {reading : Reading} {segments : List Segment} (hheld : reading.Holds segments)
    (h : P reading.tree) {segment : Segment}
    (hshape : ∀ signature, shapeOf segment.text ≠ .procedureStart signature) :
    P (reading.plainStatement (shapeOf segment.text) segment).tree

namespace Preserves

variable {P : SyntaxTree → Prop} (hpreserves : Preserves P)
include hpreserves

theorem keptByWidening : KeptByWidening P :=
  fun _ h _ _ hkind hwidened selection ↦ hpreserves.widen h hkind hwidened selection

/-- A property of growing trees is kept by each statement behind the file header. -/
theorem codeStatement (hheld : reading.Holds segments) (h : P reading.tree) (segment : Segment) :
    P (reading.codeStatement segment).tree := by
  have hwiden := hpreserves.keptByWidening
  unfold Reading.codeStatement
  split
  · next hblock => exact hwiden.blockLine hheld h hblock segment
  · split
    · next hshape =>
      have hclosed := hwiden.closeProcedure hheld h
      have hmember := hpreserves.member hheld.closeProcedure.1 hclosed hshape
      obtain ⟨hbegun, -⟩ := hheld.beginProcedure hshape
      have hbody := hbegun.stands.body_kind
      rw [Reading.beginProcedure, SyntaxTree.kind?_widen] at hbody
      exact hpreserves.widen hmember hbody rfl _
    · next hopened => exact hwiden.endProcedure hheld h hopened segment
    · next hheader _ => exact hpreserves.statement hheld h fun signature ↦ hheader signature

/-- A property of growing trees is kept whatever is read. -/
theorem follows : Follows (fun _ ↦ True) fun reading segments ↦ reading.Holds segments ∧ P reading.tree where
  holds h := h.1
  outside h header pending annotations := ⟨follows_holds.outside h.1 header pending annotations, h.2⟩
  code h segment _ := ⟨(h.1.codeStatement segment).1, hpreserves.codeStatement h.1 h.2 segment⟩

/-- A property of growing trees is kept by all items. -/
theorem foldl_item (hheld : reading.Holds segments) (h : P reading.tree) (items : List LineItem) :
    P (items.foldl Reading.item reading).tree :=
  (hpreserves.follows.foldl_item ⟨hheld, h⟩ items fun _ _ ↦ trivial).2

/-- What reading keeps holds of the tree of a module if it holds of the tree of its sections. -/
theorem readModule (component text : String)
    (hstart : P (Reading.start component text.toList).tree) :
    P (readModule component text).tree :=
  hpreserves.foldl_item (holds_start component text.toList) hstart (lineItems text.toList)

end Preserves

end Reading

def keptStatements (source : List Char) : List Segment := Openings.start.kept (statementsOf source)

/-- Reading a module loses and invents no statement: the nodes that stand for statements, in the order
of their numbers, stand one by one for those statements of the text that make nodes. They are the
nodes below the body, an element of the declarations or a block. -/
theorem statements_correspond_to_nodes (component text : String) :
    let tree := (readModule component text).tree
    List.Forall₂ tree.Renders tree.statementNodes (keptStatements text.toList) ∧
      tree.statementNodes.Pairwise (· < ·) ∧
      ∀ id, id ∈ tree.statementNodes ↔ ∃ holder kind, tree.kind? holder = some kind ∧
        (kind = .moduleBody ∨ kind = .moduleDeclarationsElement ∨ kind = .block) ∧
        id ∈ tree.children holder := by
  intro tree
  have hheld := (Reading.holds_start component text.toList).foldl_item (lineItems text.toList)
  refine ⟨?_, ?_, ?_⟩
  · exact hheld.renders
  · exact (List.pairwise_lt_range).filter _
  · intro id
    rw [SyntaxTree.mem_statementNodes]
    simp only [NodeKind.holdsStatements_iff]

end VbaLint
