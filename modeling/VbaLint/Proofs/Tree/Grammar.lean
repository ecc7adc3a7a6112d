import Mathlib.Data.List.Basic
import VbaLint.Proofs.Tree.Keeping

/-!
# The grammar of trees

Which children a node may have follows from its kind. A tree obeys the grammar if all of its nodes have
such children. A tree that obeys it goes on to do so if whole subtrees that obey it are put behind the
children of a node whose kind admits them.
-/

namespace VbaLint.Tree

open Source Statement Text

namespace NodeKind

/-- The statements that are no members. -/
def isPlainStatement : NodeKind → Bool
  | optionExplicitStmt | optionBaseStmt | optionCompareStmt | optionPrivateModuleStmt
  | attributeStmt | variableStmt | constStmt | typeStmt | enumStmt | letStmt | setStmt | callStmt
  | otherStmt => true
  | _ => false

/-- A node of the kind may have children of the kinds `below`, in this order. -/
def Admits : NodeKind → List NodeKind → Prop
  | module, below => below = [moduleDeclarations, moduleBody]
  | moduleDeclarations, below => ∀ kind ∈ below, kind = moduleDeclarationsElement
  | moduleDeclarationsElement, below => ∃ kind, kind.isPlainStatement = true ∧ below = [kind]
  | moduleBody, below => ∀ kind ∈ below, kind.isProcedure = true
  | subStmt, below | functionStmt, below | propertyGetStmt, below | propertyLetStmt, below
  | propertySetStmt, below =>
    ∃ parameters, below = identifier :: List.replicate parameters arg ++ [block]
  | block, below => ∀ kind ∈ below, kind.isPlainStatement = true
  | letStmt, below | setStmt, below =>
    below = [identifier, expression] ∨ below = [expression, expression]
  | callStmt, below => below = [expression]
  | otherStmt, below => below = [] ∨ below = [expression]
  | variableStmt, below => ∀ kind ∈ below, kind = variableSubStmt
  | arg, below | variableSubStmt, below => below = [] ∨ below = [identifier]
  | constStmt, below => ∀ kind ∈ below, kind = constSubStmt
  | constSubStmt, below =>
    below = [] ∨ below = [identifier] ∨ below = [expression] ∨ below = [identifier, expression]
  | typeStmt, below | enumStmt, below => below = [identifier]
  | expression, below => ∀ kind ∈ below, kind = identifier
  | optionExplicitStmt, below | optionBaseStmt, below | optionCompareStmt, below
  | optionPrivateModuleStmt, below | attributeStmt, below | identifier, below => below = []

/-- A member may have a name, parameters and a block below it. -/
theorem admits_of_isProcedure {kind : NodeKind} (h : kind.isProcedure = true) (parameters : Nat) :
    kind.Admits (identifier :: List.replicate parameters arg ++ [block]) := by
  cases kind <;> first | exact ⟨parameters, rfl⟩ | cases h

end NodeKind

namespace SyntaxTree

variable {tree grown : SyntaxTree} {id parent : Nat}

/-- The kinds of the children of the node named `id`, oldest first. -/
def childKinds (tree : SyntaxTree) (id : Nat) : List NodeKind :=
  (tree.children id).filterMap tree.kind?

/-- All children of a node are nodes of the tree. -/
theorem map_kind?_children (tree : SyntaxTree) (id : Nat) :
    (tree.children id).map tree.kind? = (tree.childKinds id).map some := by
  have hknown : ∀ child ∈ tree.children id, ∃ kind, tree.kind? child = some kind := by
    intro child hchild
    have hlt := (lt_of_mem_children hchild).2
    have hnode : tree.node? child = some tree.nodes[child] := Array.getElem?_eq_getElem hlt
    exact ⟨_, by rw [kind?, hnode, Option.map_some]⟩
  unfold childKinds
  generalize tree.children id = nodes at hknown
  induction nodes with
  | nil => rfl
  | cons child rest ih =>
    obtain ⟨kind, hkind⟩ := hknown child List.mem_cons_self
    have hrest := ih fun other hother ↦ hknown other (List.mem_cons_of_mem child hother)
    rw [List.map_cons, List.filterMap_cons, hkind, List.map_cons, hrest]

/-- The root is a module, and every node has children of kinds that its own kind admits. -/
structure Obeys (tree : SyntaxTree) : Prop where
  root : tree.kind? 0 = some .module
  admits {id : Nat} {kind : NodeKind} : tree.kind? id = some kind →
    kind.Admits (tree.childKinds id)

section AddChild

variable {kind : NodeKind} {selection : Selection} {text : String}

theorem childKinds_addChild_of_lt (hparent : parent < tree.size) (hid : id < tree.size) :
    (tree.addChild parent kind selection text).childKinds id =
      tree.childKinds id ++ if parent = id then [kind] else [] := by
  have hold : (tree.children id).filterMap (tree.addChild parent kind selection text).kind? =
      tree.childKinds id := by
    apply List.filterMap_congr
    intro child hchild
    exact kind?_addChild_of_lt (lt_of_mem_children hchild).2
  rw [childKinds, children_addChild_of_lt hparent hid, List.filterMap_append, hold]
  split
  · rw [List.filterMap_cons, kind?_addChild_self hparent, List.filterMap_nil]
  · rfl

theorem childKinds_addChild_self :
    (tree.addChild parent kind selection text).childKinds tree.size = [] := by
  rw [childKinds, children_addChild_self, List.filterMap_nil]

end AddChild

@[simp]
theorem childKinds_widen (widened : Nat) (selection : Selection) (id : Nat) :
    (tree.widen widened selection).childKinds id = tree.childKinds id := by
  have hchildren : (tree.widen widened selection).children id = tree.children id := by
    have hnode : (tree.widen widened selection).node? id =
        if widened = id then (tree.node? id).map (·.widen selection) else tree.node? id :=
      Array.getElem?_modify
    rw [children, children, hnode]
    split
    · rw [Option.map_map]
      rfl
    · rfl
  rw [childKinds, childKinds, hchildren]
  exact List.filterMap_congr fun child _ ↦ kind?_widen widened selection child

/-- The second tree is the first with subtrees behind the children of `parent` that obey the grammar and
whose roots are of the kinds `added`. -/
structure Appends (tree grown : SyntaxTree) (parent : Nat) (added : List NodeKind) : Prop where
  size_le : tree.size ≤ grown.size
  kind?_eq {id : Nat} : id < tree.size → grown.kind? id = tree.kind? id
  childKinds_eq {id : Nat} : id < tree.size →
    grown.childKinds id = tree.childKinds id ++ if parent = id then added else []
  admits {id : Nat} {kind : NodeKind} : tree.size ≤ id → grown.kind? id = some kind →
    kind.Admits (grown.childKinds id)

namespace Appends

variable {added more : List NodeKind}

theorem refl (tree : SyntaxTree) (parent : Nat) : Appends tree tree parent [] where
  size_le := Nat.le_refl _
  kind?_eq _ := rfl
  childKinds_eq _ := by rw [ite_self, List.append_nil]
  admits hid hkind := absurd (lt_size_of_kind? hkind) (Nat.not_lt_of_le hid)

/-- Children are appended one after another. -/
theorem trans {further : SyntaxTree} (h : Appends tree grown parent added)
    (h' : Appends grown further parent more) (hparent : parent < tree.size) :
    Appends tree further parent (added ++ more) where
  size_le := Nat.le_trans h.size_le h'.size_le
  kind?_eq hid := (h'.kind?_eq (Nat.lt_of_lt_of_le hid h.size_le)).trans (h.kind?_eq hid)
  childKinds_eq hid := by
    rw [h'.childKinds_eq (Nat.lt_of_lt_of_le hid h.size_le), h.childKinds_eq hid, List.append_assoc]
    split <;> rfl
  admits := by
    intro id kind hid hkind
    by_cases hlt : id < grown.size
    · have hne : parent ≠ id := by omega
      rw [h'.childKinds_eq hlt, if_neg hne, List.append_nil]
      exact h.admits hid ((h'.kind?_eq hlt).symm.trans hkind)
    · exact h'.admits (Nat.le_of_not_lt hlt) hkind

/-- Widening a node appends nothing to any. -/
theorem widen (h : Appends tree grown parent added) (widened : Nat) (selection : Selection) :
    Appends tree (grown.widen widened selection) parent added where
  size_le := by rw [size_widen]; exact h.size_le
  kind?_eq hid := by rw [kind?_widen]; exact h.kind?_eq hid
  childKinds_eq hid := by rw [childKinds_widen]; exact h.childKinds_eq hid
  admits hid hkind := by
    rw [kind?_widen] at hkind
    rw [childKinds_widen]
    exact h.admits hid hkind

/-- A new node whose own children are appended to it. -/
theorem node {kind : NodeKind} {selection : Selection} {text : String} (hparent : parent < tree.size)
    (h : Appends (tree.addChild parent kind selection text) grown tree.size added)
    (hadmits : kind.Admits added) : Appends tree grown parent [kind] := by
  have hsize : (tree.addChild parent kind selection text).size = tree.size + 1 := size_addChild
  refine ⟨?_, ?_, ?_, ?_⟩
  · have := h.size_le
    omega
  · intro id hid
    rw [h.kind?_eq (by omega), kind?_addChild_of_lt hid]
  · intro id hid
    have hne : tree.size ≠ id := by omega
    rw [h.childKinds_eq (by omega), childKinds_addChild_of_lt hparent hid, if_neg hne,
      List.append_nil]
  · intro id other hid hkind
    by_cases hnew : id = tree.size
    · subst hnew
      rw [h.kind?_eq (by omega), kind?_addChild_self hparent] at hkind
      cases hkind
      rw [h.childKinds_eq (by omega), childKinds_addChild_self, if_pos rfl, List.nil_append]
      exact hadmits
    · exact h.admits (by omega) hkind

/-- A new node without children. -/
theorem leaf (hparent : parent < tree.size) (kind : NodeKind) (hadmits : kind.Admits [])
    (selection : Selection) (text : String) :
    Appends tree (tree.addChild parent kind selection text) parent [kind] :=
  node hparent (refl _ _) hadmits

/-- Appending one subtree for each member of a list. -/
theorem foldl {β : Type} {add : SyntaxTree → β → SyntaxTree} (kind : NodeKind)
    (hadd : ∀ further item, parent < further.size → Appends further (add further item) parent [kind])
    (hparent : parent < tree.size) (items : List β) :
    Appends tree (items.foldl add tree) parent (List.replicate items.length kind) := by
  induction items generalizing tree with
  | nil => exact refl tree parent
  | cons item rest ih =>
    have hfirst := hadd tree item hparent
    exact hfirst.trans (ih (Nat.lt_of_lt_of_le hparent hfirst.size_le)) hparent

end Appends

/-- A tree goes on to obey the grammar if the kind of the node that gets children admits them. -/
theorem Obeys.append (h : tree.Obeys) {added : List NodeKind}
    (hgrown : Appends tree grown parent added)
    (hadmits : ∀ kind, tree.kind? parent = some kind →
      kind.Admits (tree.childKinds parent) → kind.Admits (tree.childKinds parent ++ added)) :
    grown.Obeys where
  root := (hgrown.kind?_eq tree.size_pos).trans h.root
  admits := by
    intro id kind hkind
    by_cases hid : id < tree.size
    · rw [hgrown.kind?_eq hid] at hkind
      rw [hgrown.childKinds_eq hid]
      split
      · next heq =>
        subst heq
        exact hadmits kind hkind (h.admits hkind)
      · rw [List.append_nil]
        exact h.admits hkind
    · exact hgrown.admits (Nat.le_of_not_lt hid) hkind

/-- Widening a node leaves a tree that obeys the grammar. -/
theorem Obeys.widen (h : tree.Obeys) (widened : Nat) (selection : Selection) :
    (tree.widen widened selection).Obeys where
  root := (kind?_widen widened selection 0).trans h.root
  admits hkind := by
    rw [kind?_widen] at hkind
    rw [childKinds_widen]
    exact h.admits hkind

section Parts

variable (hparent : parent < tree.size) (statement : Segment)
include hparent

/-- A name appends an identifier. -/
theorem appends_identifier (name : Span) :
    Appends tree (tree.addSpan parent .identifier statement name) parent [.identifier] :=
  .leaf hparent .identifier rfl _ _

/-- An expression appends one node, with its words below. -/
theorem appends_addExpression (span : Span) :
    Appends tree (tree.addExpression parent statement span) parent [.expression] := by
  have hnode : tree.size < (tree.addSpan parent .expression statement span).size := by simp [addSpan]
  have hwords := Appends.foldl .identifier
    (fun _ word hfurther ↦ appends_identifier hfurther statement
      ⟨word.text, span.offset + word.offset⟩) hnode (occurrences span.text)
  exact .node hparent hwords fun kind hkind ↦ List.eq_of_mem_replicate hkind

theorem appends_addConstant (item : Span) :
    Appends tree (tree.addConstant parent statement item) parent [.constSubStmt] := by
  let begun := tree.addSpan parent .constSubStmt statement item
  let name := item.text.takeWhile isIdentifierChar
  let named := if name.isEmpty then begun
    else begun.addSpan tree.size .identifier statement ⟨name, item.offset⟩
  have hnode : tree.size < begun.size := by simp [begun, addSpan]
  obtain ⟨first, hfirst, hnamed⟩ : ∃ first : List NodeKind,
      (first = [] ∨ first = [.identifier]) ∧ Appends begun named tree.size first := by
    simp only [named]
    split
    · exact ⟨[], .inl rfl, .refl begun tree.size⟩
    · exact ⟨[.identifier], .inr rfl, appends_identifier hnode statement _⟩
  have hnode' : tree.size < named.size := Nat.lt_of_lt_of_le hnode hnamed.size_le
  unfold addConstant
  dsimp only
  split
  · refine .node hparent hnamed ?_
    rcases hfirst with rfl | rfl
    · exact .inl rfl
    · exact .inr (.inl rfl)
  · refine .node hparent (hnamed.trans (appends_addExpression hnode' statement _) hnode) ?_
    rcases hfirst with rfl | rfl
    · exact .inr (.inr (.inl rfl))
    · exact .inr (.inr (.inr rfl))

theorem appends_addVariable (item : Span) :
    Appends tree (tree.addVariable parent statement item) parent [.variableSubStmt] := by
  have hnode : tree.size < (tree.addSpan parent .variableSubStmt statement item).size := by
    simp [addSpan]
  unfold addVariable
  split
  · exact .leaf hparent .variableSubStmt (.inl rfl) _ _
  · exact .node hparent (appends_identifier hnode statement _) (.inr rfl)

theorem appends_addParameter (item : Span) :
    Appends tree (tree.addParameter parent statement item) parent [.arg] := by
  have hnode : tree.size < (tree.addSpan parent .arg statement item).size := by simp [addSpan]
  unfold addParameter
  split
  · exact .leaf hparent .arg (.inl rfl) _ _
  · exact .node hparent (appends_identifier hnode statement _) (.inr rfl)

/-- The items of a list append one node each. -/
theorem appends_addItems {add : SyntaxTree → Span → SyntaxTree} {kind : NodeKind}
    (hadd : ∀ further item, parent < further.size → Appends further (add further item) parent [kind])
    (list : Span) : ∃ count,
      Appends tree (tree.addItems add list) parent (List.replicate count kind) :=
  ⟨_, .foldl kind (fun further _ hfurther ↦ hadd further _ hfurther) hparent (items list.text)⟩

/-- An assignment appends its target and its value. -/
theorem appends_addAssignment (assignment : Assignment) : ∃ target,
    (target = .identifier ∨ target = .expression) ∧
      Appends tree (tree.addAssignment parent statement assignment) parent [target, .expression] := by
  unfold addAssignment
  dsimp only
  split
  · next name _ =>
    have htarget := appends_identifier hparent statement ⟨name, assignment.target.offset⟩
    refine ⟨.identifier, .inl rfl, htarget.trans (appends_addExpression ?_ statement _) hparent⟩
    exact Nat.lt_of_lt_of_le hparent htarget.size_le
  · have htarget := appends_addExpression hparent statement assignment.target
    refine ⟨.expression, .inr rfl, htarget.trans (appends_addExpression ?_ statement _) hparent⟩
    exact Nat.lt_of_lt_of_le hparent htarget.size_le

end Parts

end SyntaxTree

end VbaLint.Tree
