import VbaLint.Proofs.Source.Lowering
import VbaLint.Proofs.Statement.LoweredForms
import VbaLint.Proofs.Tree.Growth
import VbaLint.Proofs.Tree.Shape

/-!
# Lowered trees

A tree is lowered by lowering the texts of its nodes. The names of parameters and variables also
lose their places: such a place is that of the first letters in the item that are spelled like the
name, and which these are depends on the case of letters. Nothing else does. A statement and the
same statement with its letters lowered are laid out as trees that are alike: they have one lowered
form.
-/

namespace VbaLint.Tree

open Source Statement Text

/-- An identifier below an item of the kind `above` whose place is searched for in the item. -/
def NodeKind.isSearched (kind : NodeKind) (above : Option NodeKind) : Bool :=
  kind == .identifier && (above == some .arg || above == some .variableSubStmt)

/-- The lowered form of a node below a node of the kind `above`. -/
def Node.lowered (node : Node) (above : Option NodeKind) : Node :=
  { node with
    text := lowerAsciiString node.text
    selection := if node.kind.isSearched above then .unset else node.selection }

namespace SyntaxTree

def lowered (tree : SyntaxTree) : SyntaxTree where
  nodes := tree.nodes.map fun node ↦ node.lowered (node.parent.bind tree.kind?)
  linked := by
    refine tree.linked.of_same_links (by simp) ?_
    intro id node h
    rw [Array.getElem?_map] at h
    obtain ⟨old, hold, rfl⟩ := Option.map_eq_some_iff.1 h
    exact ⟨old, hold, rfl, rfl⟩

section

variable (tree : SyntaxTree) (id : Nat)

/-- Lowering a tree lowers each node by what it stands below. -/
theorem node?_lowered :
    tree.lowered.node? id =
      (tree.node? id).map fun node ↦ node.lowered (node.parent.bind tree.kind?) :=
  Array.getElem?_map

theorem selection?_lowered {kind : NodeKind} (hkind : tree.kind? id = some kind)
    (hname : kind ≠ .identifier) :
    (tree.lowered.node? id).map (·.selection) = (tree.node? id).map (·.selection) := by
  obtain ⟨node, hnode, rfl⟩ := Option.map_eq_some_iff.1 hkind
  simp [node?_lowered, hnode, Node.lowered, NodeKind.isSearched, hname]

/-- Lowering leaves the kinds and the links of nodes. -/
theorem sameShape_lowered : tree.lowered.SameShape tree where
  size_eq := Array.size_map
  kind?_eq id := by
    rw [kind?, node?_lowered, Option.map_map]
    rfl
  parent?_eq id := by
    rw [parent?, node?_lowered, Option.bind_map]
    rfl
  children_eq id := by
    rw [children, node?_lowered, Option.map_map]
    rfl

@[simp]
theorem size_lowered : tree.lowered.size = tree.size := tree.sameShape_lowered.size_eq

@[simp]
theorem attachmentPoint_lowered : tree.lowered.attachmentPoint id = tree.attachmentPoint id :=
  tree.sameShape_lowered.attachmentPoint_eq id

@[simp]
theorem kind?_lowered : tree.lowered.kind? id = tree.kind? id := tree.sameShape_lowered.kind?_eq id

@[simp]
theorem parent?_lowered : tree.lowered.parent? id = tree.parent? id :=
  tree.sameShape_lowered.parent?_eq id

@[simp]
theorem ancestorWhere?_lowered (p : NodeKind → Bool) :
    tree.lowered.ancestorWhere? id p = tree.ancestorWhere? id p :=
  tree.sameShape_lowered.ancestorWhere?_eq id p

@[simp]
theorem enclosingProcedure?_lowered :
    tree.lowered.enclosingProcedure? id = tree.enclosingProcedure? id :=
  tree.sameShape_lowered.enclosingProcedure?_eq id

@[simp]
theorem childrenOfKind_lowered (kind : NodeKind) :
    tree.lowered.childrenOfKind id kind = tree.childrenOfKind id kind :=
  tree.sameShape_lowered.childrenOfKind_eq id kind

@[simp]
theorem firstChildOfKind?_lowered (kind : NodeKind) :
    tree.lowered.firstChildOfKind? id kind = tree.firstChildOfKind? id kind :=
  tree.sameShape_lowered.firstChildOfKind?_eq id kind

@[simp]
theorem ancestors_lowered : tree.lowered.ancestors id = tree.ancestors id :=
  tree.sameShape_lowered.ancestors_eq id

@[simp]
theorem preorder_lowered : tree.lowered.preorder = tree.preorder := tree.sameShape_lowered.preorder_eq

@[simp]
theorem visits_lowered : tree.lowered.visits = tree.visits := tree.sameShape_lowered.visits_eq

end

/-! ## Growth -/

theorem lowered_addChild (tree : SyntaxTree) (parent : Nat) (kind : NodeKind)
    (selection : Selection) (text : String) :
    (tree.addChild parent kind selection text).lowered =
      tree.lowered.addChild parent kind
        (if kind.isSearched (tree.kind? (tree.attachmentPoint parent)) then .unset else selection)
        (lowerAsciiString text) := by
  apply eq_of_node?_eq
  intro id
  rcases Nat.lt_trichotomy id tree.size with hlt | rfl | hgt
  · rw [node?_lowered, node?_addChild_of_lt hlt, node?_addChild_of_lt (by rwa [size_lowered]),
      attachmentPoint_lowered, size_lowered, node?_lowered]
    cases hnode : tree.node? id with
    | none => split <;> rfl
    | some node =>
      -- What is above an old node is older still, and keeps its kind.
      have habove : node.parent.bind (tree.addChild parent kind selection text).kind? =
          node.parent.bind tree.kind? := by
        cases hparent : node.parent with
        | none => rfl
        | some above =>
          have habove : above < id := tree.linked.parent_lt hnode hparent
          exact kind?_addChild_of_lt (Nat.lt_trans habove hlt)
      split <;> simp [Node.lowered, Node.withChild, habove]
  · have habove : (tree.addChild parent kind selection text).kind? (tree.attachmentPoint parent) =
        tree.kind? (tree.attachmentPoint parent) :=
      kind?_addChild_of_lt (tree.attachmentPoint_lt parent)
    rw [node?_lowered, node?_addChild_self, Option.map_some, Option.bind_some, habove,
      ← size_lowered,
      node?_addChild_self, attachmentPoint_lowered]
    rfl
  · rw [node?_eq_none (by rw [size_lowered, size_addChild]; omega),
      node?_eq_none (by rw [size_addChild, size_lowered]; omega)]

/-- The lowered form of a node whose range was widened follows from its lowered form before. -/
theorem node?_lowered_widen (tree : SyntaxTree) (id : Nat) (selection : Selection) (other : Nat) :
    (tree.widen id selection).lowered.node? other =
      if id = other then
        (tree.lowered.node? other).map fun node ↦
          if node.kind.isSearched (node.parent.bind tree.lowered.kind?) then node
          else node.widen selection
      else tree.lowered.node? other := by
  have hkind : (tree.widen id selection).kind? = tree.kind? := funext (kind?_widen id selection)
  have hkind' : tree.lowered.kind? = tree.kind? := funext tree.kind?_lowered
  rw [node?_lowered, node?_widen, node?_lowered, hkind, hkind', Option.map_map]
  split
  · rw [Option.map_map]
    congr 1
    funext node
    simp only [Function.comp_apply, Node.lowered, Node.widen]
    split <;> rfl
  · rfl

/-! ## Trees that are alike -/

/-- The trees have one lowered form. -/
def Alike (left right : SyntaxTree) : Prop := left.lowered = right.lowered

namespace Alike

variable {left right : SyntaxTree} (h : left.Alike right)

theorem refl (tree : SyntaxTree) : tree.Alike tree := rfl

include h

theorem size_eq : left.size = right.size := by rw [← size_lowered, h, size_lowered]

theorem kind?_eq (id : Nat) : left.kind? id = right.kind? id := by
  rw [← kind?_lowered, h, kind?_lowered]

theorem parent?_eq (id : Nat) : left.parent? id = right.parent? id := by
  rw [← parent?_lowered, h, parent?_lowered]

/-- Only identifiers may have other ranges in trees that are alike. -/
theorem selection?_eq {id : Nat} {kind : NodeKind} (hkind : left.kind? id = some kind)
    (hname : kind ≠ .identifier) :
    (left.node? id).map (·.selection) = (right.node? id).map (·.selection) := by
  rw [← left.selection?_lowered id hkind hname, h,
    right.selection?_lowered id ((h.kind?_eq id).symm.trans hkind) hname]

theorem attachmentPoint_eq (id : Nat) : left.attachmentPoint id = right.attachmentPoint id := by
  rw [← attachmentPoint_lowered, h, attachmentPoint_lowered]

/-- Trees that are alike are widened alike. -/
theorem widen (id : Nat) (selection : Selection) :
    (left.widen id selection).Alike (right.widen id selection) := by
  apply eq_of_node?_eq
  intro other
  rw [node?_lowered_widen, node?_lowered_widen, h]

/-- A new node whose texts differ in case only, with one place or with one that is searched for. -/
theorem addChild (parent : Nat) (kind : NodeKind) {selection selection' : Selection}
    {text text' : String} (htext : lowerAsciiString text = lowerAsciiString text')
    (hselection : selection = selection' ∨
      kind.isSearched (left.kind? (left.attachmentPoint parent)) = true) :
    (left.addChild parent kind selection text).Alike
      (right.addChild parent kind selection' text') := by
  rw [Alike, lowered_addChild, lowered_addChild, ← h.attachmentPoint_eq, ← h.kind?_eq, h, htext]
  rcases hselection with rfl | hsearched
  · rfl
  · rw [if_pos hsearched, if_pos hsearched]

/-- The same is done for each member of a list. -/
theorem foldl {β : Type} {add add' : SyntaxTree → β → SyntaxTree}
    (hadd : ∀ left right item, Alike left right → Alike (add left item) (add' right item))
    (items : List β) : (items.foldl add left).Alike (items.foldl add' right) := by
  induction items generalizing left right with
  | nil => exact h
  | cons item rest ih => exact ih (hadd left right item h)

end Alike

/-! ## Parts of statements -/

section Parts

variable {left right : SyntaxTree} (h : left.Alike right) (parent : Nat) (statement : Segment)

@[simp]
theorem placeIn_lowered (span : Span) :
    placeIn statement.lowered span.lowered = placeIn statement span := by
  simp [placeIn, Segment.lowered]

theorem lowerAsciiString_text_lowered (span : Span) :
    lowerAsciiString (String.ofList span.text) =
      lowerAsciiString (String.ofList span.lowered.text) := by
  simp

include h

theorem alike_addSpan (kind : NodeKind) (span : Span) :
    (left.addSpan parent kind statement span).Alike
      (right.addSpan parent kind statement.lowered span.lowered) :=
  h.addChild parent kind (lowerAsciiString_text_lowered span)
    (.inl (placeIn_lowered statement span).symm)

theorem alike_addExpression (span : Span) :
    (left.addExpression parent statement span).Alike
      (right.addExpression parent statement.lowered span.lowered) := by
  rw [addExpression, addExpression, text_lowered, occurrences_lowerAscii, List.foldl_map,
    ← h.size_eq]
  refine (alike_addSpan h parent statement .expression span).foldl ?_ _
  intro left' right' word h'
  exact alike_addSpan h' left.size statement .identifier ⟨word.text, span.offset + word.offset⟩

theorem alike_addConstant (item : Span) :
    (left.addConstant parent statement item).Alike
      (right.addConstant parent statement.lowered item.lowered) := by
  have hitem := alike_addSpan h parent statement .constSubStmt item
  have hname : (lowerAscii item.text).takeWhile isIdentifierChar =
      lowerAscii (item.text.takeWhile isIdentifierChar) :=
    takeWhile_lowerAscii item.text isIdentifierChar_toLower
  have hequals : (lowerAscii item.text).dropWhile (· != '=') =
      lowerAscii (item.text.dropWhile (· != '=')) :=
    dropWhile_lowerAscii item.text fun c ↦ congrArg (!·) (toLower_beq (by decide))
  have hnamed : Alike
      (if (item.text.takeWhile isIdentifierChar).isEmpty then
        left.addSpan parent .constSubStmt statement item
      else
        (left.addSpan parent .constSubStmt statement item).addSpan left.size .identifier statement
          ⟨item.text.takeWhile isIdentifierChar, item.offset⟩)
      (if (item.text.takeWhile isIdentifierChar).isEmpty then
        right.addSpan parent .constSubStmt statement.lowered item.lowered
      else (right.addSpan parent .constSubStmt statement.lowered item.lowered).addSpan left.size .identifier
        statement.lowered ⟨lowerAscii (item.text.takeWhile isIdentifierChar), item.offset⟩) := by
    split
    · exact hitem
    · exact alike_addSpan hitem left.size statement .identifier ⟨_, item.offset⟩
  simp only [addConstant, text_lowered, hname, hequals, isEmpty_lowerAscii, offset_lowered,
    byteLength_lowerAscii, ← h.size_eq]
  cases item.text.dropWhile (· != '=') with
  | nil => exact hnamed
  | cons c behind =>
    simp only [lowerAscii_cons, trimStart_lowerAscii, byteLength_lowerAscii]
    exact alike_addExpression hnamed left.size statement ⟨trimStart behind, _⟩

/-- An item with a name that is searched for in it. -/
theorem alike_addSearched {kind : NodeKind} (hkind : kind = .arg ∨ kind = .variableSubStmt)
    (item : Span) (name : List Char) (offset offset' : Nat) :
    ((left.addSpan parent kind statement item).addSpan left.size .identifier statement
        ⟨name, offset⟩).Alike
      ((right.addSpan parent kind statement.lowered item.lowered).addSpan right.size .identifier
        statement.lowered
        ⟨lowerAscii name, offset'⟩) := by
  have hlt : left.size < (left.addSpan parent kind statement item).size := by simp [addSpan]
  have habove : (left.addSpan parent kind statement item).kind? left.size = some kind := by
    rw [addSpan, kind?, node?_addChild_self, Option.map_some]
  rw [← h.size_eq]
  refine (alike_addSpan h parent statement kind item).addChild left.size .identifier (by simp)
    (.inr ?_)
  rw [attachmentPoint_of_lt hlt, habove]
  rcases hkind with rfl | rfl <;> rfl

theorem alike_addVariable (item : Span) :
    (left.addVariable parent statement item).Alike
      (right.addVariable parent statement.lowered item.lowered) := by
  unfold addVariable
  rw [text_lowered, declaredItem?_lowerAscii]
  cases declaredItem? item.text with
  | none => exact alike_addSpan h parent statement .variableSubStmt item
  | some declared =>
    exact alike_addSearched h parent statement (.inr rfl) item declared.name _ _

theorem alike_addParameter (item : Span) :
    (left.addParameter parent statement item).Alike
      (right.addParameter parent statement.lowered item.lowered) := by
  unfold addParameter
  rw [text_lowered, parameter?_lowerAscii]
  cases parameter? item.text with
  | none => exact alike_addSpan h parent statement .arg item
  | some declared => exact alike_addSearched h parent statement (.inl rfl) item declared.name _ _

theorem alike_addItems {add add' : SyntaxTree → Span → SyntaxTree}
    (hadd : ∀ left right item, Alike left right → Alike (add left item) (add' right item.lowered))
    (list : Span) : (left.addItems add list).Alike (right.addItems add' list.lowered) := by
  rw [addItems, addItems, text_lowered, items_lowerAscii, List.foldl_map]
  refine h.foldl ?_ _
  intro left' right' item h'
  exact hadd left' right' ⟨item.text, list.offset + item.offset⟩ h'

theorem alike_addAssignment (assignment : Assignment) :
    (left.addAssignment parent statement assignment).Alike
      (right.addAssignment parent statement.lowered assignment.lowered) := by
  simp only [addAssignment, Assignment.lowered, text_lowered, plainName?_lowerAscii]
  cases plainName? assignment.target.text with
  | none =>
    exact alike_addExpression (alike_addExpression h parent statement _) parent statement _
  | some name =>
    have htarget := alike_addSpan h parent statement .identifier ⟨name, assignment.target.offset⟩
    exact alike_addExpression htarget parent statement _

end Parts

theorem statementKind_lowered (shape : Shape) :
    statementKind shape.lowered = statementKind shape := by
  cases shape <;> rfl

/-! ## Statements -/

section Statements

variable {left right : SyntaxTree} (h : left.Alike right) (parent : Nat) (segment : Segment)
include h

/-- Statements are added alike in any case. -/
theorem alike_addStatement (shape : Shape) :
    (left.addStatement parent shape segment).Alike
      (right.addStatement parent shape.lowered segment.lowered) := by
  have hnode : Alike
      (left.addChild parent (statementKind shape) segment.selection (String.ofList segment.text))
      (right.addChild parent (statementKind shape) segment.selection
        (String.ofList segment.lowered.text)) :=
    h.addChild parent _ (lowerAsciiString_text_lowered ⟨segment.text, 0⟩) (.inl rfl)
  simp only [addStatement, statementKind_lowered, ← h.size_eq]
  match shape with
  | .option kind => exact hnode
  | .attribute => exact hnode
  | .declare => exact hnode
  | .blockStart kind name => exact alike_addSpan hnode left.size segment .identifier name
  | .constants list =>
    exact alike_addItems hnode
      (fun _ _ item h' ↦ alike_addConstant h' left.size segment item) list
  | .variables list =>
    exact alike_addItems hnode
      (fun _ _ item h' ↦ alike_addVariable h' left.size segment item) list
  | .setAssignment assignment =>
    exact alike_addAssignment hnode left.size segment assignment
  | .letAssignment assignment =>
    exact alike_addAssignment hnode left.size segment assignment
  | .call expression => exact alike_addExpression hnode left.size segment expression
  | .procedureEnd => exact alike_addExpression hnode left.size segment ⟨segment.text, 0⟩
  | .procedureStart signature =>
    exact alike_addExpression hnode left.size segment ⟨segment.text, 0⟩
  | .blockEnd => exact alike_addExpression hnode left.size segment ⟨segment.text, 0⟩
  | .other => exact alike_addExpression hnode left.size segment ⟨segment.text, 0⟩

/-- Members are added alike in any case. -/
theorem alike_addMember (signature : Signature) :
    (left.addMember parent signature segment).Alike
      (right.addMember parent signature.lowered segment.lowered) := by
  have hnode : Alike
      (left.addChild parent signature.kind segment.selection (String.ofList segment.text))
      (right.addChild parent signature.kind segment.selection
        (String.ofList segment.lowered.text)) :=
    h.addChild parent _ (lowerAsciiString_text_lowered ⟨segment.text, 0⟩) (.inl rfl)
  have hname := alike_addSpan hnode left.size segment .identifier signature.name
  simp only [addMember, Signature.lowered, ← h.size_eq]
  cases signature.parameters with
  | none => exact hname
  | some list =>
    exact alike_addItems hname
      (fun _ _ item h' ↦ alike_addParameter h' left.size segment item) list

end Statements

end SyntaxTree

end VbaLint.Tree
