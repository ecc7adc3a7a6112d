import VbaLint.Source.Selection
import VbaLint.Tree.NodeKind

/-!
# Nodes and their links

Nodes are kept in a table in the order in which they were made, and a node is named by its place
there. A table is linked if its first node alone has no parent, every other parent has a smaller
number, and the children of a node are exactly the nodes whose parent it is, in increasing order.
Appending a node under a known one and widening a range keep a table linked. The places have no bound here;
in 32 bits they are told apart as long as a table has at most 2³² nodes.
-/

namespace VbaLint.Tree

open Source

/-- One node of a tree. -/
structure Node where
  kind : NodeKind
  selection : Selection
  /-- The source text of the node; for an identifier its name. -/
  text : String
  parent : Option Nat
  children : Array Nat
  deriving Repr

namespace Node

def withChild (node : Node) (child : Nat) : Node :=
  { node with children := node.children.push child }

def widen (node : Node) (selection : Selection) : Node :=
  { node with selection := node.selection.widen selection }

end Node

/-- The node `child` names `id` as its parent. -/
def isChildOf (nodes : Array Node) (id child : Nat) : Bool :=
  nodes[child]?.bind (·.parent) == some id

/-- The links of a table of nodes form a tree with root zero. -/
structure Linked (nodes : Array Node) : Prop where
  size_pos : 0 < nodes.size
  parent_eq_none_iff {id : Nat} {node : Node} :
    nodes[id]? = some node → (node.parent = none ↔ id = 0)
  parent_lt {id parent : Nat} {node : Node} :
    nodes[id]? = some node → node.parent = some parent → parent < id
  children_eq {id : Nat} {node : Node} :
    nodes[id]? = some node →
      node.children.toList = (List.range nodes.size).filter (isChildOf nodes id)

/-- A change that keeps parents and children keeps the links. -/
theorem Linked.of_same_links {nodes changed : Array Node} (linked : Linked nodes)
    (size_eq : changed.size = nodes.size)
    (same : ∀ {id : Nat} {node : Node}, changed[id]? = some node →
      ∃ old, nodes[id]? = some old ∧ node.parent = old.parent ∧ node.children = old.children) :
    Linked changed := by
  have child (id : Nat) : isChildOf changed id = isChildOf nodes id := by
    funext c
    unfold isChildOf
    cases hc : changed[c]? with
    | none =>
      have : changed.size ≤ c := Array.getElem?_eq_none_iff.1 hc
      rw [Array.getElem?_eq_none_iff.2 (by omega)]
    | some node =>
      obtain ⟨old, hold, hparent, _⟩ := same hc
      simp [hold, hparent]
  constructor
  · have := linked.size_pos
    omega
  · intro id node h
    obtain ⟨old, hold, hparent, _⟩ := same h
    rw [hparent]
    exact linked.parent_eq_none_iff hold
  · intro id parent node h hp
    obtain ⟨old, hold, hparent, _⟩ := same h
    exact linked.parent_lt hold (hparent ▸ hp)
  · intro id node h
    obtain ⟨old, hold, _, hchildren⟩ := same h
    rw [hchildren, linked.children_eq hold, size_eq, child]

/-- Widening a range keeps the links. -/
theorem Linked.widen {nodes : Array Node} (linked : Linked nodes) (id : Nat)
    (selection : Selection) : Linked (nodes.modify id (·.widen selection)) := by
  refine linked.of_same_links (by simp) ?_
  intro other node h
  rw [Array.getElem?_modify] at h
  split at h
  · obtain ⟨old, hold, rfl⟩ := Option.map_eq_some_iff.1 h
    exact ⟨old, hold, rfl, rfl⟩
  · exact ⟨node, h, rfl, rfl⟩

section

variable {nodes : Array Node} {parent id : Nat} {added node : Node}

theorem getElem?_added_self :
    ((nodes.modify parent (·.withChild nodes.size)).push added)[nodes.size]? = some added := by
  rw [Array.getElem?_push, if_pos (by simp)]

theorem getElem?_added_of_lt (h : id < nodes.size) :
    ((nodes.modify parent (·.withChild nodes.size)).push added)[id]? =
      if parent = id then nodes[id]?.map (·.withChild nodes.size) else nodes[id]? := by
  rw [Array.getElem?_push, if_neg (by simp; omega), Array.getElem?_modify]

/-- A node behind an appended one is that node, or an old one that has perhaps got a child. -/
theorem eq_or_exists_of_added
    (h : ((nodes.modify parent (·.withChild nodes.size)).push added)[id]? = some node) :
    (id = nodes.size ∧ node = added) ∨
      ∃ old, nodes[id]? = some old ∧ node.parent = old.parent ∧
        node.children.toList = old.children.toList ++ if parent = id then [nodes.size] else [] := by
  rcases Nat.lt_trichotomy id nodes.size with hlt | rfl | hgt
  · right
    rw [getElem?_added_of_lt hlt] at h
    split at h
    · next hid =>
      obtain ⟨old, hold, rfl⟩ := Option.map_eq_some_iff.1 h
      exact ⟨old, hold, rfl, by simp [Node.withChild, hid]⟩
    · next hid => exact ⟨node, h, rfl, by simp [hid]⟩
  · left
    exact ⟨rfl, Option.some.inj (h.symm.trans getElem?_added_self)⟩
  · obtain ⟨hlt, -⟩ := Array.getElem?_eq_some_iff.1 h
    rw [Array.size_push, Array.size_modify] at hlt
    omega

/-- Nothing is a child of a place where no node is yet. -/
theorem Linked.isChildOf_size (linked : Linked nodes) (child : Nat) :
    isChildOf nodes nodes.size child = false := by
  rw [isChildOf, beq_eq_false_iff_ne]
  intro hparent
  obtain ⟨node, hnode, hup⟩ := Option.bind_eq_some_iff.1 hparent
  have hlt := linked.parent_lt hnode hup
  obtain ⟨hchild, -⟩ := Array.getElem?_eq_some_iff.1 hnode
  omega

/-- The appended node is the last child of its parent and no child of others. -/
theorem filter_isChildOf_added (hadded : added.parent = some parent) (id : Nat) :
    (List.range (nodes.size + 1)).filter
        (isChildOf ((nodes.modify parent (·.withChild nodes.size)).push added) id) =
      (List.range nodes.size).filter (isChildOf nodes id) ++
        if parent = id then [nodes.size] else [] := by
  rw [List.range_succ, List.filter_append]
  congr 1
  · apply List.filter_congr
    intro child hchild
    rw [isChildOf, isChildOf, getElem?_added_of_lt (List.mem_range.1 hchild)]
    split
    · cases nodes[child]? <;> rfl
    · rfl
  · rw [List.filter_cons, List.filter_nil, isChildOf, getElem?_added_self, Option.bind_some, hadded]
    simp

end

/-- Appending a node under a known one keeps the links. -/
theorem Linked.addChild {nodes : Array Node} (linked : Linked nodes) {parent : Nat}
    (hparent : parent < nodes.size) (kind : NodeKind) (selection : Selection) (text : String) :
    Linked
      ((nodes.modify parent (·.withChild nodes.size)).push
        ⟨kind, selection, text, some parent, #[]⟩) := by
  constructor
  · simp
  · intro id node h
    rcases eq_or_exists_of_added h with ⟨rfl, rfl⟩ | ⟨old, hold, hup, -⟩
    · have := linked.size_pos
      simp only [reduceCtorEq, false_iff]
      omega
    · rw [hup]
      exact linked.parent_eq_none_iff hold
  · intro id up node h hup
    rcases eq_or_exists_of_added h with ⟨rfl, rfl⟩ | ⟨old, hold, heq, -⟩
    · cases Option.some.inj hup
      exact hparent
    · exact linked.parent_lt hold (heq ▸ hup)
  · intro id node h
    rw [Array.size_push, Array.size_modify, filter_isChildOf_added rfl]
    rcases eq_or_exists_of_added h with ⟨rfl, rfl⟩ | ⟨old, hold, -, hchildren⟩
    · have hnone : (List.range nodes.size).filter (isChildOf nodes nodes.size) = [] :=
        List.filter_eq_nil_iff.2 fun child _ ↦ by simp [linked.isChildOf_size]
      rw [hnone, if_neg (Nat.ne_of_lt hparent)]
      rfl
    · rw [hchildren, linked.children_eq hold]

end VbaLint.Tree
