import VbaLint.Proofs.Source.Moving
import VbaLint.Proofs.Tree.Shape

/-!
# Trees of texts with lines put in

When lines that make no nodes are put into a text, its tree keeps all nodes and only their ranges move. The
range of the root is that of the whole text and is left out of account. A statement and the same statement
further down are laid out as trees that correspond in this way.
-/

namespace VbaLint.Tree.SyntaxTree

open Source Statement Text

/-- The trees are the same but for the ranges of nodes, which move with the lines. -/
structure MovesTo (insertion : Insertion) (left right : SyntaxTree) : Prop where
  size_eq : left.size = right.size
  node? {id : Nat} {node : Node} : left.node? id = some node → ∃ selection,
    right.node? id = some { node with selection } ∧
      (id ≠ 0 → node.selection.MovesTo insertion selection)

namespace MovesTo

variable {insertion : Insertion} {left right : SyntaxTree} (h : left.MovesTo insertion right)
include h

/-- Moving the ranges leaves the shape of the tree. -/
theorem sameShape : left.SameShape right :=
  .of_nodes h.size_eq fun hnode ↦
    have ⟨_, hnode', _⟩ := h.node? hnode
    ⟨_, hnode', rfl, rfl, rfl⟩

/-- A tree may be widened before or after lines are put in. -/
theorem widen (id : Nat) {selection : Selection} (hselection : selection.IsCounted) :
    (left.widen id selection).MovesTo insertion (right.widen id (selection.moved insertion)) where
  size_eq := by rw [size_widen, size_widen, h.size_eq]
  node? {other node} hnode := by
    rw [node?_widen] at hnode ⊢
    split at hnode
    · next heq =>
      obtain ⟨old, hold, rfl⟩ := Option.map_eq_some_iff.1 hnode
      obtain ⟨place, hplace, hmoves⟩ := h.node? hold
      refine ⟨place.widen (selection.moved insertion), ?_, fun hroot ↦ (hmoves hroot).widen hselection⟩
      rw [if_pos heq, hplace]
      rfl
    · next hne =>
      rw [if_neg hne]
      exact h.node? hnode

/-- A node may be added before or after lines are put in. -/
theorem addChild (parent : Nat) (kind : NodeKind) {selection selection' : Selection}
    (hselection : selection.MovesTo insertion selection') (text : String) :
    (left.addChild parent kind selection text).MovesTo insertion
      (right.addChild parent kind selection' text) where
  size_eq := by rw [size_addChild, size_addChild, h.size_eq]
  node? {id node} hnode := by
    have hpoint := h.sameShape.attachmentPoint_eq parent
    rcases Nat.lt_trichotomy id left.size with hlt | rfl | hgt
    · rw [node?_addChild_of_lt hlt] at hnode
      rw [node?_addChild_of_lt (h.size_eq ▸ hlt), ← hpoint, ← h.size_eq]
      split at hnode
      · next heq =>
        obtain ⟨old, hold, rfl⟩ := Option.map_eq_some_iff.1 hnode
        obtain ⟨place, hplace, hmoves⟩ := h.node? hold
        refine ⟨place, ?_, hmoves⟩
        rw [if_pos heq, hplace]
        rfl
      · next hne =>
        rw [if_neg hne]
        exact h.node? hnode
    · rw [node?_addChild_self] at hnode
      cases hnode
      refine ⟨selection', ?_, fun _ ↦ hselection⟩
      rw [h.size_eq, node?_addChild_self, hpoint]
    · rw [node?_eq_none (by rw [size_addChild]; omega)] at hnode
      cases hnode

/-- The same is done for each member of a list. -/
theorem foldl {β : Type} {add add' : SyntaxTree → β → SyntaxTree}
    (hadd : ∀ left right item, MovesTo insertion left right →
      MovesTo insertion (add left item) (add' right item))
    (items : List β) : (items.foldl add left).MovesTo insertion (items.foldl add' right) := by
  induction items generalizing left right with
  | nil => exact h
  | cons item rest ih => exact ih (hadd left right item h)

variable (parent : Nat) {statement : Segment} (hstatement : statement.selection.IsCounted)
include hstatement

theorem addSpan (kind : NodeKind) (span : Span) :
    (left.addSpan parent kind statement span).MovesTo insertion
      (right.addSpan parent kind (statement.moved insertion) span) :=
  h.addChild parent kind (Selection.isCounted_onLine hstatement.1 _ _).movesTo _

theorem addExpression (span : Span) :
    (left.addExpression parent statement span).MovesTo insertion
      (right.addExpression parent (statement.moved insertion) span) := by
  rw [SyntaxTree.addExpression, SyntaxTree.addExpression, ← h.size_eq]
  refine (h.addSpan parent hstatement .expression span).foldl ?_ _
  intro left' right' word h'
  exact h'.addSpan left.size hstatement .identifier ⟨word.text, span.offset + word.offset⟩

theorem addConstant (item : Span) :
    (left.addConstant parent statement item).MovesTo insertion
      (right.addConstant parent (statement.moved insertion) item) := by
  have hitem := h.addSpan parent hstatement .constSubStmt item
  simp only [SyntaxTree.addConstant, ← h.size_eq]
  generalize item.text.takeWhile isIdentifierChar = name
  have hnamed : MovesTo insertion
      (if name.isEmpty then left.addSpan parent .constSubStmt statement item
      else (left.addSpan parent .constSubStmt statement item).addSpan left.size .identifier statement
        ⟨name, item.offset⟩)
      (if name.isEmpty then right.addSpan parent .constSubStmt (statement.moved insertion) item
      else (right.addSpan parent .constSubStmt (statement.moved insertion) item).addSpan left.size
        .identifier (statement.moved insertion) ⟨name, item.offset⟩) := by
    split
    · exact hitem
    · exact hitem.addSpan left.size hstatement .identifier ⟨name, item.offset⟩
  cases item.text.dropWhile (· != '=') with
  | nil => exact hnamed
  | cons c behind => exact hnamed.addExpression left.size hstatement ⟨trimStart behind, _⟩

theorem addVariable (item : Span) :
    (left.addVariable parent statement item).MovesTo insertion
      (right.addVariable parent (statement.moved insertion) item) := by
  have hitem := h.addSpan parent hstatement .variableSubStmt item
  unfold SyntaxTree.addVariable
  rw [← h.size_eq]
  cases declaredItem? item.text with
  | none => exact hitem
  | some declared => exact hitem.addSpan left.size hstatement .identifier _

theorem addParameter (item : Span) :
    (left.addParameter parent statement item).MovesTo insertion
      (right.addParameter parent (statement.moved insertion) item) := by
  have hitem := h.addSpan parent hstatement .arg item
  unfold SyntaxTree.addParameter
  rw [← h.size_eq]
  cases parameter? item.text with
  | none => exact hitem
  | some declared => exact hitem.addSpan left.size hstatement .identifier _

theorem addAssignment (assignment : Assignment) :
    (left.addAssignment parent statement assignment).MovesTo insertion
      (right.addAssignment parent (statement.moved insertion) assignment) := by
  unfold SyntaxTree.addAssignment
  cases plainName? assignment.target.text with
  | none => exact (h.addExpression parent hstatement _).addExpression parent hstatement _
  | some name => exact (h.addSpan parent hstatement .identifier _).addExpression parent hstatement _

omit hstatement parent in
/-- A list may be added before or after lines are put in, if its items may. -/
theorem addItems {add add' : SyntaxTree → Span → SyntaxTree}
    (hadd : ∀ left right item, MovesTo insertion left right →
      MovesTo insertion (add left item) (add' right item))
    (list : Span) : (left.addItems add list).MovesTo insertion (right.addItems add' list) := by
  refine h.foldl ?_ _
  intro left' right' item h'
  exact hadd left' right' ⟨item.text, list.offset + item.offset⟩ h'

end MovesTo

namespace MovesTo

variable {insertion : Insertion} {left right : SyntaxTree} (h : left.MovesTo insertion right) (parent : Nat)
  {segment : Segment} (hsegment : segment.selection.IsCounted)
include h hsegment

/-- A statement may be added before or after lines are put in. -/
theorem addStatement (shape : Shape) :
    (left.addStatement parent shape segment).MovesTo insertion
      (right.addStatement parent shape (segment.moved insertion)) := by
  have hplace : segment.selection.MovesTo insertion (segment.moved insertion).selection := hsegment.movesTo
  have hnode := h.addChild parent (statementKind shape) hplace (String.ofList segment.text)
  simp only [SyntaxTree.addStatement, ← h.size_eq]
  match shape with
  | .option _ | .attribute | .declare => exact hnode
  | .blockStart _ name => exact hnode.addSpan left.size hsegment .identifier name
  | .constants list => exact hnode.addItems (fun _ _ item h' ↦ h'.addConstant left.size hsegment item) list
  | .variables list => exact hnode.addItems (fun _ _ item h' ↦ h'.addVariable left.size hsegment item) list
  | .setAssignment assignment | .letAssignment assignment =>
    exact hnode.addAssignment left.size hsegment assignment
  | .call expression => exact hnode.addExpression left.size hsegment expression
  | .procedureEnd | .procedureStart _ | .blockEnd | .other =>
    exact hnode.addExpression left.size hsegment ⟨segment.text, 0⟩

/-- A member may be added before or after lines are put in. -/
theorem addMember (signature : Signature) :
    (left.addMember parent signature segment).MovesTo insertion
      (right.addMember parent signature (segment.moved insertion)) := by
  have hplace : segment.selection.MovesTo insertion (segment.moved insertion).selection := hsegment.movesTo
  have hnode := h.addChild parent signature.kind hplace (String.ofList segment.text)
  have hname := hnode.addSpan left.size hsegment .identifier signature.name
  simp only [SyntaxTree.addMember, ← h.size_eq]
  cases signature.parameters with
  | none => exact hname
  | some list => exact hname.addItems (fun _ _ item h' ↦ h'.addParameter left.size hsegment item) list

end MovesTo

end VbaLint.Tree.SyntaxTree
