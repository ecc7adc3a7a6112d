import VbaLint.Tree.Basic

/-!
# Walks through a tree

Upwards along the parents, and downwards in depth-first order. The downward walk comes in two forms:
the bare list of nodes, and the visits, which also tell when the walk leaves a node that encloses
others.
-/

namespace VbaLint.Tree

/-- One event of a walk through a tree. -/
inductive Visit where
  | enter (kind : NodeKind) (id : Nat)
  | leave (kind : NodeKind) (id : Nat)
  deriving DecidableEq, Repr

/-- The walk tells when it leaves a node of this kind. -/
def NodeKind.encloses (kind : NodeKind) : Bool :=
  kind == .module || kind == .moduleDeclarations || kind.isProcedure

namespace SyntaxTree

def ancestors (tree : SyntaxTree) (id : Nat) : List Nat :=
  match _h : tree.parent? id with
  | none => []
  | some parent => parent :: tree.ancestors parent
termination_by id
decreasing_by exact parent_lt _h

def ancestorWhere? (tree : SyntaxTree) (id : Nat) (p : NodeKind → Bool) : Option Nat :=
  (tree.ancestors id).find? fun ancestor ↦ (tree.kind? ancestor).any p

def ancestorOfKind? (tree : SyntaxTree) (id : Nat) (kind : NodeKind) : Option Nat :=
  tree.ancestorWhere? id (· == kind)

def enclosingProcedure? (tree : SyntaxTree) (id : Nat) : Option Nat :=
  tree.ancestorWhere? id (·.isProcedure)

def childrenOfKind (tree : SyntaxTree) (id : Nat) (kind : NodeKind) : List Nat :=
  (tree.children id).filter fun child ↦ tree.kind? child == some kind

def firstChildOfKind? (tree : SyntaxTree) (id : Nat) (kind : NodeKind) : Option Nat :=
  (tree.children id).find? fun child ↦ tree.kind? child == some kind

/-- The node `id` and the nodes below it in depth-first order. -/
def preorderFrom (tree : SyntaxTree) (id : Nat) : List Nat :=
  id :: (tree.children id).attach.flatMap fun ⟨child, _h⟩ ↦ tree.preorderFrom child
termination_by tree.size - id
decreasing_by
  have := lt_of_mem_children _h
  omega

def preorder (tree : SyntaxTree) : List Nat := tree.preorderFrom 0

/-- The visits of a walk through the node `id` and what is below it. -/
def visitsFrom (tree : SyntaxTree) (id : Nat) : List Visit :=
  match tree.kind? id with
  | none => []
  | some kind =>
    .enter kind id ::
      ((tree.children id).attach.flatMap fun ⟨child, _h⟩ ↦ tree.visitsFrom child) ++
        if kind.encloses then [.leave kind id] else []
termination_by tree.size - id
decreasing_by
  have := lt_of_mem_children _h
  omega

def visits (tree : SyntaxTree) : List Visit := tree.visitsFrom 0

end SyntaxTree

end VbaLint.Tree
