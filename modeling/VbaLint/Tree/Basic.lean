import VbaLint.Tree.Node

/-!
# Syntax trees

The tree of a module is a linked table of nodes whose first node is the root. Nodes are only ever
appended, so the number of a node stays valid while the tree grows.
-/

namespace VbaLint.Tree

open Source

/-- The tree of a module. -/
structure SyntaxTree where
  nodes : Array Node
  linked : Linked nodes

namespace SyntaxTree

def ofRoot (text : String) (selection : Selection) : SyntaxTree where
  nodes := #[⟨.module, selection, text, none, #[]⟩]
  linked := by
    constructor
    · simp
    · intro id node hnode
      obtain ⟨hid, rfl⟩ := Array.getElem?_eq_some_iff.1 hnode
      simp at hid
      simp [hid]
    · intro id node parent hnode hparent
      obtain ⟨hid, rfl⟩ := Array.getElem?_eq_some_iff.1 hnode
      simp at hid
      simp [hid] at hparent
    · intro id node hnode
      obtain ⟨hid, rfl⟩ := Array.getElem?_eq_some_iff.1 hnode
      simp at hid
      simp [hid, isChildOf, List.range_succ]

instance : Inhabited SyntaxTree := ⟨ofRoot "" .unset⟩

def size (tree : SyntaxTree) : Nat := tree.nodes.size

def node? (tree : SyntaxTree) (id : Nat) : Option Node := tree.nodes[id]?

def kind? (tree : SyntaxTree) (id : Nat) : Option NodeKind := (tree.node? id).map (·.kind)

/-- The parent of the node named `id`; the root and unknown nodes have none. -/
def parent? (tree : SyntaxTree) (id : Nat) : Option Nat := (tree.node? id).bind (·.parent)

/-- The children of the node named `id`, oldest first; an unknown node has none. -/
def children (tree : SyntaxTree) (id : Nat) : List Nat :=
  ((tree.node? id).map (·.children.toList)).getD []

theorem size_pos (tree : SyntaxTree) : 0 < tree.size := tree.linked.size_pos

/-- A node has a greater number than its parent. -/
theorem parent_lt {tree : SyntaxTree} {id parent : Nat} (h : tree.parent? id = some parent) :
    parent < id := by
  obtain ⟨node, hnode, hparent⟩ := Option.bind_eq_some_iff.1 h
  exact tree.linked.parent_lt hnode hparent

/-- The children of a node are those that name it as their parent. -/
theorem mem_children {tree : SyntaxTree} {id child : Nat} :
    child ∈ tree.children id ↔ tree.parent? child = some id := by
  constructor
  · intro h
    unfold children at h
    cases hnode : tree.node? id with
    | none => simp [hnode] at h
    | some node =>
      rw [hnode, Option.map_some, Option.getD_some, tree.linked.children_eq hnode] at h
      have := (List.mem_filter.1 h).2
      simpa [isChildOf, parent?, node?] using this
  · intro h
    have hlt := parent_lt h
    have hchild : child < tree.nodes.size := by
      obtain ⟨node, hnode, _⟩ := Option.bind_eq_some_iff.1 h
      exact (Array.getElem?_eq_some_iff.1 hnode).1
    have hid : id < tree.nodes.size := by omega
    have hnode : tree.node? id = some tree.nodes[id] := Array.getElem?_eq_getElem hid
    unfold children
    rw [hnode, Option.map_some, Option.getD_some, tree.linked.children_eq hnode]
    refine List.mem_filter.2 ⟨List.mem_range.2 hchild, ?_⟩
    simpa [isChildOf, parent?, node?] using h

/-- Children have greater numbers than the node and belong to the tree. -/
theorem lt_of_mem_children {tree : SyntaxTree} {id child : Nat}
    (h : child ∈ tree.children id) : id < child ∧ child < tree.size := by
  have hparent := mem_children.1 h
  obtain ⟨node, hnode, _⟩ := Option.bind_eq_some_iff.1 hparent
  exact ⟨parent_lt hparent, (Array.getElem?_eq_some_iff.1 hnode).1⟩

/-- The number of the node under which a node asked for under `parent` is put: the root if there is
no such node. -/
def attachmentPoint (tree : SyntaxTree) (parent : Nat) : Nat :=
  if parent < tree.size then parent else 0

/-- A node is attached to a node that there is. -/
theorem attachmentPoint_lt (tree : SyntaxTree) (parent : Nat) :
    tree.attachmentPoint parent < tree.size := by
  have := tree.size_pos
  unfold attachmentPoint
  split <;> omega

/-- Append a node under `parent`, or under the root if there is no such node. The new node is named
by the size of the tree before. -/
def addChild (tree : SyntaxTree) (parent : Nat) (kind : NodeKind) (selection : Selection)
    (text : String) : SyntaxTree where
  nodes :=
    (tree.nodes.modify (tree.attachmentPoint parent) (·.withChild tree.size)).push
      ⟨kind, selection, text, some (tree.attachmentPoint parent), #[]⟩
  linked := tree.linked.addChild (tree.attachmentPoint_lt parent) kind selection text

/-- Widen the range of a node; an unknown node is left alone. -/
def widen (tree : SyntaxTree) (id : Nat) (selection : Selection) : SyntaxTree where
  nodes := tree.nodes.modify id (·.widen selection)
  linked := tree.linked.widen id selection

end SyntaxTree

end VbaLint.Tree
