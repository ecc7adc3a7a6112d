import VbaLint.Proofs.Tree.Growth
import VbaLint.Proofs.Tree.Preorder

/-!
# Trees of one shape

Walks through a tree follow the links and look at the kinds of nodes. So trees that agree in these are
walked in the same way, whatever their texts and ranges are.
-/

namespace VbaLint.Tree.SyntaxTree

/-- The trees have nodes of the same kinds with the same links. -/
structure SameShape (left right : SyntaxTree) : Prop where
  size_eq : left.size = right.size
  kind?_eq (id : Nat) : left.kind? id = right.kind? id
  parent?_eq (id : Nat) : left.parent? id = right.parent? id
  children_eq (id : Nat) : left.children id = right.children id

/-- Trees have one shape if their nodes agree one by one. -/
theorem SameShape.of_nodes {left right : SyntaxTree} (hsize : left.size = right.size)
    (hnodes : ∀ {id : Nat} {node : Node}, left.node? id = some node → ∃ node', right.node? id = some node' ∧
      node'.kind = node.kind ∧ node'.parent = node.parent ∧ node'.children = node.children) :
    left.SameShape right := by
  refine ⟨hsize, fun id ↦ ?_, fun id ↦ ?_, fun id ↦ ?_⟩
  all_goals cases hnode : left.node? id with
  | none => simp [kind?, parent?, children, hnode, node?_eq_none_of_size_eq hsize hnode]
  | some node =>
    obtain ⟨node', hnode', hkind, hparent, hchildren⟩ := hnodes hnode
    simp [kind?, parent?, children, hnode, hnode', hkind, hparent, hchildren]

namespace SameShape

variable {left right : SyntaxTree} (h : left.SameShape right) (id : Nat)
include h

theorem attachmentPoint_eq : left.attachmentPoint id = right.attachmentPoint id := by
  rw [attachmentPoint, h.size_eq, attachmentPoint]

/-- Trees of one shape have the same ways up. -/
theorem ancestors_eq : left.ancestors id = right.ancestors id := by
  induction id using Nat.strongRecOn with
  | ind id ih =>
    cases hparent : left.parent? id with
    | none =>
      rw [ancestors_of_no_parent hparent, ancestors_of_no_parent (by rwa [← h.parent?_eq])]
    | some parent =>
      have hparent' : right.parent? id = some parent := by rwa [← h.parent?_eq]
      rw [ancestors_of_parent hparent, ancestors_of_parent hparent', ih parent (parent_lt hparent)]

theorem ancestorWhere?_eq (p : NodeKind → Bool) : left.ancestorWhere? id p = right.ancestorWhere? id p := by
  simp only [ancestorWhere?, h.ancestors_eq, h.kind?_eq]

theorem enclosingProcedure?_eq : left.enclosingProcedure? id = right.enclosingProcedure? id :=
  h.ancestorWhere?_eq id _

theorem childrenOfKind_eq (kind : NodeKind) : left.childrenOfKind id kind = right.childrenOfKind id kind := by
  simp only [childrenOfKind, h.children_eq, h.kind?_eq]

theorem firstChildOfKind?_eq (kind : NodeKind) :
    left.firstChildOfKind? id kind = right.firstChildOfKind? id kind := by
  simp only [firstChildOfKind?, h.children_eq, h.kind?_eq]

theorem preorderFrom_eq_preorderFrom : left.preorderFrom id = right.preorderFrom id := by
  induction hrank : right.size - id using Nat.strongRecOn generalizing id with
  | ind rank ih =>
    have hbelow : (right.children id).flatMap left.preorderFrom =
        (right.children id).flatMap right.preorderFrom := by
      apply List.flatMap_congr
      intro child hchild
      obtain ⟨hlt, hsize⟩ := lt_of_mem_children hchild
      exact ih (right.size - child) (by omega) child rfl
    rw [preorderFrom_eq, preorderFrom_eq, h.children_eq, hbelow]

theorem visitsFrom_eq_visitsFrom : left.visitsFrom id = right.visitsFrom id := by
  induction hrank : right.size - id using Nat.strongRecOn generalizing id with
  | ind rank ih =>
    have hbelow : (right.children id).flatMap left.visitsFrom =
        (right.children id).flatMap right.visitsFrom := by
      apply List.flatMap_congr
      intro child hchild
      obtain ⟨hlt, hsize⟩ := lt_of_mem_children hchild
      exact ih (right.size - child) (by omega) child rfl
    cases hkind : left.kind? id with
    | none => rw [visitsFrom_of_no_kind hkind, visitsFrom_of_no_kind (by rwa [← h.kind?_eq])]
    | some kind =>
      rw [visitsFrom_of_kind hkind, visitsFrom_of_kind (by rwa [← h.kind?_eq]), h.children_eq, hbelow]

omit id

/-- Trees of one shape are walked in the same order. -/
theorem preorder_eq : left.preorder = right.preorder := h.preorderFrom_eq_preorderFrom 0

/-- Trees of one shape are visited alike. -/
theorem visits_eq : left.visits = right.visits := h.visitsFrom_eq_visitsFrom 0

end SameShape

end VbaLint.Tree.SyntaxTree
