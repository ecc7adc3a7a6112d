import VbaLint.Module.StatementTree

/-!
# Growing trees

Appending a node leaves the earlier nodes alone but for their children, and widening a range changes
nothing else. So the nodes that stand for statements, those below a section or block that holds
statements, can only grow at the end. What is laid out below the node of a statement adds none.
-/

namespace VbaLint.Tree

open Source Statement Text

namespace NodeKind

/-- The children of such a node stand for statements. -/
def holdsStatements : NodeKind → Bool
  | moduleBody | moduleDeclarationsElement | block => true
  | _ => false

/-- Statements are held by three kinds of nodes. -/
theorem holdsStatements_iff {kind : NodeKind} : kind.holdsStatements = true ↔
    kind = moduleBody ∨ kind = moduleDeclarationsElement ∨ kind = block := by
  cases kind <;> decide

end NodeKind

/-- The node without its children. -/
def Node.bare (node : Node) : Node := { node with children := #[] }

namespace SyntaxTree

variable {tree : SyntaxTree} {id parent : Nat}

/-! ## Nodes without their children -/

/-- What a tree says of a node, but for its children. -/
def bare? (tree : SyntaxTree) (id : Nat) : Option Node := (tree.node? id).map (·.bare)

theorem kind?_eq_bare? (tree : SyntaxTree) (id : Nat) :
    tree.kind? id = (tree.bare? id).map (·.kind) := by
  rw [kind?, bare?, Option.map_map]
  rfl

theorem parent?_eq_bare? (tree : SyntaxTree) (id : Nat) :
    tree.parent? id = (tree.bare? id).bind (·.parent) := by
  rw [parent?, bare?, Option.bind_map]
  rfl

theorem isSome_bare?_iff : (tree.bare? id).isSome = true ↔ id < tree.size := by
  rw [bare?, Option.isSome_map, node?, size]
  simp

theorem lt_size_of_kind? {kind : NodeKind} (h : tree.kind? id = some kind) : id < tree.size := by
  rw [← isSome_bare?_iff]
  rw [kind?_eq_bare?] at h
  obtain ⟨node, hnode, -⟩ := Option.map_eq_some_iff.1 h
  rw [hnode]
  rfl

/-- Trees with the same nodes are the same. -/
theorem eq_of_node?_eq {left right : SyntaxTree} (h : ∀ id, left.node? id = right.node? id) :
    left = right := by
  obtain ⟨nodes, linked⟩ := left
  obtain ⟨nodes', linked'⟩ := right
  have heq : nodes = nodes' := Array.ext_getElem? h
  subst heq
  rfl

theorem node?_eq_none {tree : SyntaxTree} {id : Nat} (h : tree.size ≤ id) : tree.node? id = none :=
  Array.getElem?_eq_none h

/-- Trees of one size know the same nodes. -/
theorem node?_eq_none_of_size_eq {left right : SyntaxTree} (hsize : left.size = right.size) {id : Nat}
    (h : left.node? id = none) : right.node? id = none := by
  have hle : left.size ≤ id := Array.getElem?_eq_none_iff.1 h
  exact node?_eq_none (by rwa [← hsize])

theorem attachmentPoint_of_lt (h : parent < tree.size) : tree.attachmentPoint parent = parent :=
  if_pos h

section AddChild

variable {kind : NodeKind} {selection : Selection} {text : String}

@[simp]
theorem size_addChild : (tree.addChild parent kind selection text).size = tree.size + 1 := by
  simp [size, addChild]

/-- A node that is added has no children yet. -/
theorem node?_addChild_self :
    (tree.addChild parent kind selection text).node? tree.size =
      some ⟨kind, selection, text, some (tree.attachmentPoint parent), #[]⟩ := by
  simp only [node?, addChild, size]
  rw [Array.getElem?_push, if_pos (by simp)]

/-- A node that is added becomes the last child of its parent. -/
theorem node?_addChild_of_lt (h : id < tree.size) :
    (tree.addChild parent kind selection text).node? id =
      if tree.attachmentPoint parent = id then (tree.node? id).map (·.withChild tree.size)
      else tree.node? id := by
  simp only [node?, addChild]
  rw [Array.getElem?_push, if_neg (by simp [size] at h ⊢; omega), Array.getElem?_modify]

theorem bare?_addChild_self (h : parent < tree.size) :
    (tree.addChild parent kind selection text).bare? tree.size =
      some ⟨kind, selection, text, some parent, #[]⟩ := by
  rw [bare?, node?_addChild_self, attachmentPoint_of_lt h]
  rfl

/-- A node that is added leaves the others as they are, but for their children. -/
theorem bare?_addChild_of_lt (h : id < tree.size) :
    (tree.addChild parent kind selection text).bare? id = tree.bare? id := by
  rw [bare?, bare?, node?_addChild_of_lt h]
  split
  · rw [Option.map_map]
    rfl
  · rfl

theorem kind?_addChild_self (h : parent < tree.size) :
    (tree.addChild parent kind selection text).kind? tree.size = some kind := by
  rw [kind?_eq_bare?, bare?_addChild_self h]
  rfl

theorem kind?_addChild_of_lt (h : id < tree.size) :
    (tree.addChild parent kind selection text).kind? id = tree.kind? id := by
  rw [kind?_eq_bare?, bare?_addChild_of_lt h, ← kind?_eq_bare?]

end AddChild

section Widen

variable (id : Nat) (selection : Selection)

theorem node?_widen (other : Nat) :
    (tree.widen id selection).node? other =
      if id = other then (tree.node? other).map (·.widen selection) else tree.node? other :=
  Array.getElem?_modify

@[simp]
theorem size_widen : (tree.widen id selection).size = tree.size := by
  simp [size, widen]

/-- Widening changes one node only. -/
theorem bare?_widen (other : Nat) :
    (tree.widen id selection).bare? other =
      if id = other then (tree.bare? other).map (·.widen selection) else tree.bare? other := by
  rw [bare?, node?_widen, bare?]
  split
  · rw [Option.map_map, Option.map_map]
    rfl
  · rfl

@[simp]
theorem kind?_widen (other : Nat) : (tree.widen id selection).kind? other = tree.kind? other := by
  rw [kind?_eq_bare?, kind?_eq_bare?, bare?_widen]
  split
  · rw [Option.map_map]
    rfl
  · rfl

@[simp]
theorem parent?_widen (other : Nat) :
    (tree.widen id selection).parent? other = tree.parent? other := by
  rw [parent?_eq_bare?, parent?_eq_bare?, bare?_widen]
  split
  · rw [Option.bind_map]
    rfl
  · rfl

end Widen

/-! ## The nodes of statements -/

/-- The node stands for a statement: its parent holds statements. -/
def isStatement (tree : SyntaxTree) (id : Nat) : Bool :=
  ((tree.parent? id).bind tree.kind?).any (·.holdsStatements)

/-- The nodes that stand for statements, in the order of their numbers. -/
def statementNodes (tree : SyntaxTree) : List Nat :=
  (List.range tree.size).filter tree.isStatement

theorem isStatement_addChild_of_lt {kind : NodeKind} {selection : Selection} {text : String}
    (h : id < tree.size) :
    (tree.addChild parent kind selection text).isStatement id = tree.isStatement id := by
  have hparent : (tree.addChild parent kind selection text).parent? id = tree.parent? id := by
    rw [parent?_eq_bare?, bare?_addChild_of_lt h, ← parent?_eq_bare?]
  rw [isStatement, isStatement, hparent]
  cases hup : tree.parent? id with
  | none => rfl
  | some up =>
    have hlt : up < tree.size := Nat.lt_trans (parent_lt hup) h
    rw [Option.bind_some, Option.bind_some, kind?_addChild_of_lt hlt]

/-- A node stands for a statement exactly if its parent holds statements. -/
theorem isStatement_iff : tree.isStatement id = true ↔ ∃ holder kind,
    tree.parent? id = some holder ∧ tree.kind? holder = some kind ∧ kind.holdsStatements = true := by
  simp only [isStatement, Option.any_eq_true, Option.bind_eq_some_iff]
  constructor
  · rintro ⟨kind, ⟨holder, hparent, hkind⟩, hholds⟩
    exact ⟨holder, kind, hparent, hkind, hholds⟩
  · rintro ⟨holder, kind, hparent, hkind, hholds⟩
    exact ⟨kind, ⟨holder, hparent, hkind⟩, hholds⟩

theorem mem_statementNodes :
    id ∈ tree.statementNodes ↔ ∃ holder kind,
      tree.kind? holder = some kind ∧ kind.holdsStatements = true ∧ id ∈ tree.children holder := by
  rw [statementNodes, List.mem_filter, List.mem_range, isStatement_iff]
  constructor
  · rintro ⟨-, holder, kind, hparent, hkind, hholds⟩
    exact ⟨holder, kind, hkind, hholds, mem_children.2 hparent⟩
  · rintro ⟨holder, kind, hkind, hholds, hchild⟩
    exact ⟨(lt_of_mem_children hchild).2, holder, kind, mem_children.1 hchild, hkind, hholds⟩

theorem lt_size_of_isStatement (h : tree.isStatement id = true) : id < tree.size := by
  obtain ⟨holder, _, hparent, -⟩ := isStatement_iff.1 h
  exact (lt_of_mem_children (mem_children.2 hparent)).2

@[simp]
theorem isStatement_widen (widened : Nat) (selection : Selection) (id : Nat) :
    (tree.widen widened selection).isStatement id = tree.isStatement id := by
  rw [isStatement, isStatement, parent?_widen]
  cases tree.parent? id with
  | none => rfl
  | some up => rw [Option.bind_some, Option.bind_some, kind?_widen]

/-- A new node stands for a statement if it is put below a node that holds statements. -/
theorem isStatement_addChild_self {above : NodeKind} (h : tree.kind? parent = some above)
    (kind : NodeKind) (selection : Selection) (text : String) :
    (tree.addChild parent kind selection text).isStatement tree.size = above.holdsStatements := by
  have hlt : parent < tree.size := lt_size_of_kind? h
  rw [isStatement, parent?_eq_bare?, bare?_addChild_self hlt, Option.bind_some, Option.bind_some,
    kind?_addChild_of_lt hlt, h, Option.any_some]

/-- A node that is added stands for a statement exactly if its parent holds statements. -/
theorem statementNodes_addChild {above : NodeKind} (h : tree.kind? parent = some above)
    (kind : NodeKind) (selection : Selection) (text : String) :
    (tree.addChild parent kind selection text).statementNodes =
      tree.statementNodes ++ if above.holdsStatements then [tree.size] else [] := by
  have hold : (List.range tree.size).filter
        (tree.addChild parent kind selection text).isStatement = tree.statementNodes := by
    apply List.filter_congr
    intro id hid
    exact isStatement_addChild_of_lt (List.mem_range.1 hid)
  rw [statementNodes, size_addChild, List.range_succ, List.filter_append, hold, List.filter_cons,
    isStatement_addChild_self h, List.filter_nil]

@[simp]
theorem statementNodes_widen (id : Nat) (selection : Selection) :
    (tree.widen id selection).statementNodes = tree.statementNodes := by
  rw [statementNodes, statementNodes, size_widen]
  exact List.filter_congr fun other _ ↦ isStatement_widen id selection other

/-! ## Parts of statements -/

/-- The node may have parts below it of a statement that begins with the node `start`: it is not older
and holds no statements. -/
def TakesParts (tree : SyntaxTree) (start id : Nat) : Prop :=
  start ≤ id ∧ ∃ kind, tree.kind? id = some kind ∧ kind.holdsStatements = false

/-- The second tree is the first with some nodes added below nodes from `start` on, none of which stands
for a statement. -/
inductive AddsParts (start : Nat) (tree : SyntaxTree) : SyntaxTree → Prop
  | refl : AddsParts start tree tree
  | add {grown : SyntaxTree} {parent : Nat} (earlier : AddsParts start tree grown)
    (below : grown.TakesParts start parent) (kind : NodeKind) (selection : Selection)
    (text : String) : AddsParts start tree (grown.addChild parent kind selection text)

variable {start : Nat}

namespace AddsParts

variable {grown : SyntaxTree}

theorem trans {further : SyntaxTree} (h : AddsParts start tree grown)
    (h' : AddsParts start grown further) : AddsParts start tree further := by
  induction h' with
  | refl => exact h
  | add _ below kind selection text ih => exact ih.add below kind selection text

theorem size_le (h : AddsParts start tree grown) : tree.size ≤ grown.size := by
  induction h with
  | refl => exact Nat.le_refl _
  | add _ _ _ _ _ ih =>
    rw [size_addChild]
    exact Nat.le_succ_of_le ih

theorem bare?_eq (h : AddsParts start tree grown) (hid : id < tree.size) :
    grown.bare? id = tree.bare? id := by
  induction h with
  | refl => rfl
  | add earlier _ _ _ _ ih => rw [bare?_addChild_of_lt (Nat.lt_of_lt_of_le hid earlier.size_le), ih]

theorem kind?_eq (h : AddsParts start tree grown) (hid : id < tree.size) :
    grown.kind? id = tree.kind? id := by
  rw [kind?_eq_bare?, h.bare?_eq hid, ← kind?_eq_bare?]

/-- Parts of a statement do not let another node stand for a statement. -/
theorem isStatement_eq (h : AddsParts start tree grown) (hid : id < tree.size) :
    grown.isStatement id = tree.isStatement id := by
  induction h with
  | refl => rfl
  | add earlier _ _ _ _ ih =>
    rw [isStatement_addChild_of_lt (Nat.lt_of_lt_of_le hid earlier.size_le), ih]

theorem takesParts (h : AddsParts start tree grown) (hid : tree.TakesParts start id) :
    grown.TakesParts start id := by
  obtain ⟨hstart, kind, hkind, hholds⟩ := hid
  exact ⟨hstart, kind, (h.kind?_eq (lt_size_of_kind? hkind)).trans hkind, hholds⟩

/-- Parts of a statement stand for no statement. -/
theorem statementNodes_eq (h : AddsParts start tree grown) :
    grown.statementNodes = tree.statementNodes := by
  induction h with
  | refl => rfl
  | add _ below kind selection text ih =>
    obtain ⟨-, above, habove, hholds⟩ := below
    rw [statementNodes_addChild habove, hholds, if_neg Bool.false_ne_true, List.append_nil, ih]

/-- Adding parts for the members of a list. -/
theorem foldl {β : Type} {add : SyntaxTree → β → SyntaxTree} (h : AddsParts start tree grown)
    (hadd : ∀ further item, AddsParts start tree further → AddsParts start further (add further item))
    (items : List β) : AddsParts start tree (items.foldl add grown) := by
  induction items generalizing grown with
  | nil => exact h
  | cons item rest ih => exact ih (h.trans (hadd grown item h))

end AddsParts

theorem takesParts_addChild {kind : NodeKind} (h : tree.TakesParts start parent)
    (hkind : kind.holdsStatements = false) (selection : Selection) (text : String) :
    (tree.addChild parent kind selection text).TakesParts start tree.size := by
  obtain ⟨hstart, above, habove, -⟩ := h
  have hlt : parent < tree.size := lt_size_of_kind? habove
  exact ⟨Nat.le_of_lt (Nat.lt_of_le_of_lt hstart hlt), kind, kind?_addChild_self hlt, hkind⟩

section Parts

variable (h : tree.TakesParts start parent) (statement : Segment)
include h

theorem takesParts_addSpan {kind : NodeKind} (hkind : kind.holdsStatements = false) (span : Span) :
    (tree.addSpan parent kind statement span).TakesParts start tree.size :=
  takesParts_addChild h hkind _ _

/-- A span adds a part of a statement. -/
theorem addsParts_addSpan (kind : NodeKind) (span : Span) :
    AddsParts start tree (tree.addSpan parent kind statement span) :=
  AddsParts.refl.add h kind _ _

/-- An expression adds parts of a statement. -/
theorem addsParts_addExpression (span : Span) :
    AddsParts start tree (tree.addExpression parent statement span) := by
  have hnode : (tree.addSpan parent .expression statement span).TakesParts start tree.size :=
    takesParts_addSpan h statement rfl span
  refine (addsParts_addSpan h statement .expression span).trans (AddsParts.refl.foldl ?_ _)
  intro further word hfurther
  exact addsParts_addSpan (hfurther.takesParts hnode) statement .identifier _

/-- A constant adds parts of a statement. -/
theorem addsParts_addConstant (item : Span) :
    AddsParts start tree (tree.addConstant parent statement item) := by
  have hnode : (tree.addSpan parent .constSubStmt statement item).TakesParts start tree.size :=
    takesParts_addSpan h statement rfl item
  have hitem := addsParts_addSpan h statement .constSubStmt item
  let name := item.text.takeWhile isIdentifierChar
  have hname : AddsParts start (tree.addSpan parent .constSubStmt statement item)
      (if name.isEmpty then tree.addSpan parent .constSubStmt statement item
      else (tree.addSpan parent .constSubStmt statement item).addSpan tree.size .identifier statement
        ⟨name, item.offset⟩) := by
    split
    · exact .refl
    · exact addsParts_addSpan hnode statement .identifier _
  unfold addConstant
  dsimp only
  split
  · exact hitem.trans hname
  · exact (hitem.trans hname).trans (addsParts_addExpression (hname.takesParts hnode) statement _)

/-- A variable adds parts of a statement. -/
theorem addsParts_addVariable (item : Span) :
    AddsParts start tree (tree.addVariable parent statement item) := by
  have hnode : (tree.addSpan parent .variableSubStmt statement item).TakesParts start tree.size :=
    takesParts_addSpan h statement rfl item
  have hitem := addsParts_addSpan h statement .variableSubStmt item
  unfold addVariable
  split
  · exact hitem
  · exact hitem.trans (addsParts_addSpan hnode statement .identifier _)

/-- A parameter adds parts of a statement. -/
theorem addsParts_addParameter (item : Span) :
    AddsParts start tree (tree.addParameter parent statement item) := by
  have hnode : (tree.addSpan parent .arg statement item).TakesParts start tree.size :=
    takesParts_addSpan h statement rfl item
  have hitem := addsParts_addSpan h statement .arg item
  unfold addParameter
  split
  · exact hitem
  · exact hitem.trans (addsParts_addSpan hnode statement .identifier _)

/-- An assignment adds parts of a statement. -/
theorem addsParts_addAssignment (assignment : Assignment) :
    AddsParts start tree (tree.addAssignment parent statement assignment) := by
  unfold addAssignment
  dsimp only
  split
  · next name _ =>
    have htarget := addsParts_addSpan h statement .identifier ⟨name, assignment.target.offset⟩
    exact htarget.trans (addsParts_addExpression (htarget.takesParts h) statement _)
  · have htarget := addsParts_addExpression h statement assignment.target
    exact htarget.trans (addsParts_addExpression (htarget.takesParts h) statement _)

end Parts

/-- Adding the items of a list, if each adds parts below a node. -/
theorem addsParts_addItems {add : SyntaxTree → Span → SyntaxTree} (h : tree.TakesParts start parent)
    (hadd : ∀ further item, further.TakesParts start parent → AddsParts start further (add further item))
    (list : Span) : AddsParts start tree (tree.addItems add list) := by
  refine AddsParts.refl.foldl ?_ _
  intro further item hfurther
  exact hadd further _ (hfurther.takesParts h)

end SyntaxTree

end VbaLint.Tree
