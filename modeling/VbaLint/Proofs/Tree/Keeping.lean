import VbaLint.Proofs.Tree.Growth
import VbaLint.Tree.Traversal

/-!
# What a growing tree keeps

A node keeps its kind, its text and its parent while its tree grows. New children come behind those it
has, and most nodes get none any more: only some nodes go on taking children.
-/

namespace VbaLint.Tree

open Source

/-- The later state of a node: it has the further children `added`. -/
structure Node.Becomes (node later : Node) (added : List Nat) : Prop where
  kind_eq : later.kind = node.kind
  text_eq : later.text = node.text
  parent_eq : later.parent = node.parent
  children_eq : later.children.toList = node.children.toList ++ added

namespace SyntaxTree

variable {tree grown : SyntaxTree} {id parent : Nat}

def text? (tree : SyntaxTree) (id : Nat) : Option String := (tree.node? id).map (·.text)

theorem kind_eq_of_kind? {node : Node} {kind : NodeKind} (hnode : tree.node? id = some node)
    (h : tree.kind? id = some kind) : node.kind = kind := by
  rw [kind?, hnode] at h
  exact Option.some.inj h

theorem lt_size_of_text? {text : String} (h : tree.text? id = some text) : id < tree.size := by
  obtain ⟨node, hnode, -⟩ := Option.map_eq_some_iff.1 h
  exact (Array.getElem?_eq_some_iff.1 hnode).1

theorem text?_eq_bare? (tree : SyntaxTree) (id : Nat) :
    tree.text? id = (tree.bare? id).map (·.text) := by
  rw [text?, bare?, Option.map_map]
  rfl

section AddChild

variable {kind : NodeKind} {selection : Selection} {text : String}

theorem text?_addChild_self (hparent : parent < tree.size) :
    (tree.addChild parent kind selection text).text? tree.size = some text := by
  rw [text?_eq_bare?, bare?_addChild_self hparent]
  rfl

/-- A child is listed behind the other children of its parent. -/
theorem children_addChild_of_lt (hparent : parent < tree.size) (hid : id < tree.size) :
    (tree.addChild parent kind selection text).children id =
      tree.children id ++ if parent = id then [tree.size] else [] := by
  have hnode : tree.node? id = some tree.nodes[id] := Array.getElem?_eq_getElem hid
  rw [children, children, node?_addChild_of_lt hid, attachmentPoint_of_lt hparent, hnode]
  split
  · simp [Node.withChild]
  · simp

theorem children_addChild_self :
    (tree.addChild parent kind selection text).children tree.size = [] := by
  rw [children, node?_addChild_self]
  rfl

/-- A child of a kind is listed behind the others of its kind. -/
theorem childrenOfKind_addChild_of_lt (hparent : parent < tree.size) (hid : id < tree.size)
    (wanted : NodeKind) :
    (tree.addChild parent kind selection text).childrenOfKind id wanted =
      tree.childrenOfKind id wanted ++ if parent = id ∧ kind = wanted then [tree.size] else [] := by
  have hold : (tree.children id).filter
        (fun child ↦ (tree.addChild parent kind selection text).kind? child == some wanted) =
      tree.childrenOfKind id wanted := by
    apply List.filter_congr
    intro child hchild
    rw [kind?_addChild_of_lt (lt_of_mem_children hchild).2]
  rw [childrenOfKind, children_addChild_of_lt hparent hid, List.filter_append, hold]
  by_cases hsame : parent = id
  · rw [if_pos hsame, List.filter_cons, kind?_addChild_self hparent]
    by_cases hkind : kind = wanted
    · simp [hsame, hkind]
    · simp [hkind]
  · simp [hsame]

theorem childrenOfKind_addChild_self {wanted : NodeKind} :
    (tree.addChild parent kind selection text).childrenOfKind tree.size wanted = [] := by
  rw [childrenOfKind, children_addChild_self, List.filter_nil]

end AddChild

/-- The nodes of the first tree are in the second, and only those that take children have got more. -/
def Keeps (takes : Nat → Prop) (tree grown : SyntaxTree) : Prop :=
  ∀ id node, tree.node? id = some node → ∃ later added, grown.node? id = some later ∧
    node.Becomes later added ∧ (added ≠ [] → takes id)

variable {takes : Nat → Prop}

theorem lt_size_of_node? {node : Node} (h : tree.node? id = some node) : id < tree.size :=
  (Array.getElem?_eq_some_iff.1 h).1

namespace Keeps

theorem refl (takes : Nat → Prop) (tree : SyntaxTree) : Keeps takes tree tree := fun _ node hnode ↦
  ⟨node, [], hnode, ⟨rfl, rfl, rfl, (List.append_nil _).symm⟩, fun h ↦ absurd rfl h⟩

/-- A tree is kept as well if more nodes take children. -/
theorem mono {further : Nat → Prop} (h : Keeps takes tree grown) (htakes : ∀ id, takes id → further id) :
    Keeps further tree grown := by
  intro id node hnode
  obtain ⟨later, added, hlater, hbecomes, hadded⟩ := h id node hnode
  exact ⟨later, added, hlater, hbecomes, fun hsome ↦ htakes id (hadded hsome)⟩

theorem trans {further : SyntaxTree} (h : Keeps takes tree grown) (h' : Keeps takes grown further) :
    Keeps takes tree further := by
  intro id node hnode
  obtain ⟨later, added, hlater, hbecomes, htakes⟩ := h id node hnode
  obtain ⟨last, more, hlast, hbecomes', htakes'⟩ := h' id later hlater
  refine ⟨last, added ++ more, hlast, ?_, fun hsome ↦ ?_⟩
  · refine ⟨hbecomes'.kind_eq.trans hbecomes.kind_eq, hbecomes'.text_eq.trans hbecomes.text_eq,
      hbecomes'.parent_eq.trans hbecomes.parent_eq, ?_⟩
    rw [hbecomes'.children_eq, hbecomes.children_eq, List.append_assoc]
  · by_cases hadded : added = []
    · apply htakes'
      rintro rfl
      rw [hadded] at hsome
      exact hsome rfl
    · exact htakes hadded

/-- Widening keeps texts and children. -/
theorem widen (h : Keeps takes tree grown) (widened : Nat) (selection : Selection) :
    Keeps takes tree (grown.widen widened selection) := by
  intro id node hnode
  obtain ⟨later, added, hlater, hbecomes, htakes⟩ := h id node hnode
  have hwidened : (grown.widen widened selection).node? id =
      if widened = id then some (later.widen selection) else some later := by
    have hread : (grown.widen widened selection).node? id =
        if widened = id then (grown.node? id).map (·.widen selection) else grown.node? id :=
      Array.getElem?_modify
    rw [hread, hlater, Option.map_some]
  rw [hwidened]
  split
  · refine ⟨_, added, rfl, ?_, htakes⟩
    exact ⟨hbecomes.kind_eq, hbecomes.text_eq, hbecomes.parent_eq, hbecomes.children_eq⟩
  · exact ⟨later, added, rfl, hbecomes, htakes⟩

/-- A new node goes below one that takes children, or below a new one. -/
theorem addChild (h : Keeps takes tree grown) (hparent : parent < grown.size)
    (htakes : parent < tree.size → takes parent) (kind : NodeKind) (selection : Selection)
    (text : String) : Keeps takes tree (grown.addChild parent kind selection text) := by
  intro id node hnode
  obtain ⟨later, added, hlater, hbecomes, hadded⟩ := h id node hnode
  rw [node?_addChild_of_lt (lt_size_of_node? hlater), attachmentPoint_of_lt hparent, hlater]
  split
  · next hsame =>
    refine ⟨_, added ++ [grown.size], rfl, ?_, fun _ ↦ hsame ▸ htakes ?_⟩
    · refine ⟨hbecomes.kind_eq, hbecomes.text_eq, hbecomes.parent_eq, ?_⟩
      simp [Node.withChild, hbecomes.children_eq]
    · rw [hsame]
      exact lt_size_of_node? hnode
  · exact ⟨later, added, rfl, hbecomes, hadded⟩

/-- Parts of a statement keep the texts and children of all nodes in front of them. -/
theorem addsParts {start : Nat} {further : SyntaxTree} (h : Keeps takes tree grown)
    (hparts : AddsParts start grown further) (hstart : tree.size ≤ start) :
    Keeps takes tree further := by
  induction hparts with
  | refl => exact h
  | add _ below kind selection text ih =>
    obtain ⟨hbelow, _, hkind, -⟩ := below
    refine ih.addChild (lt_size_of_kind? hkind) (fun hlt ↦ ?_) kind selection text
    exact absurd (Nat.le_trans hstart hbelow) (Nat.not_le_of_lt hlt)

theorem lt_size (h : Keeps takes tree grown) (hid : id < tree.size) : id < grown.size := by
  have hnode : tree.node? id = some tree.nodes[id] := Array.getElem?_eq_getElem hid
  obtain ⟨later, _, hlater, -⟩ := h id _ hnode
  exact lt_size_of_node? hlater

theorem kind?_eq (h : Keeps takes tree grown) (hid : id < tree.size) :
    grown.kind? id = tree.kind? id := by
  have hnode : tree.node? id = some tree.nodes[id] := Array.getElem?_eq_getElem hid
  obtain ⟨later, _, hlater, hbecomes, -⟩ := h id _ hnode
  rw [kind?, kind?, hlater, hnode, Option.map_some, Option.map_some, hbecomes.kind_eq]

theorem text?_eq (h : Keeps takes tree grown) (hid : id < tree.size) :
    grown.text? id = tree.text? id := by
  have hnode : tree.node? id = some tree.nodes[id] := Array.getElem?_eq_getElem hid
  obtain ⟨later, _, hlater, hbecomes, -⟩ := h id _ hnode
  rw [text?, text?, hlater, hnode, Option.map_some, Option.map_some, hbecomes.text_eq]

theorem parent?_eq (h : Keeps takes tree grown) (hid : id < tree.size) :
    grown.parent? id = tree.parent? id := by
  have hnode : tree.node? id = some tree.nodes[id] := Array.getElem?_eq_getElem hid
  obtain ⟨later, _, hlater, hbecomes, -⟩ := h id _ hnode
  rw [parent?, parent?, hlater, hnode, Option.bind_some, Option.bind_some, hbecomes.parent_eq]

theorem isStatement_eq (h : Keeps takes tree grown) (hid : id < tree.size) :
    grown.isStatement id = tree.isStatement id := by
  rw [isStatement, isStatement, h.parent?_eq hid]
  cases hparent : tree.parent? id with
  | none => rfl
  | some up =>
    rw [Option.bind_some, Option.bind_some, h.kind?_eq (Nat.lt_trans (parent_lt hparent) hid)]

theorem exists_children (h : Keeps takes tree grown) (hid : id < tree.size) :
    ∃ added, grown.children id = tree.children id ++ added ∧ (added ≠ [] → takes id) := by
  have hnode : tree.node? id = some tree.nodes[id] := Array.getElem?_eq_getElem hid
  obtain ⟨later, added, hlater, hbecomes, htakes⟩ := h id _ hnode
  refine ⟨added, ?_, htakes⟩
  rw [children, children, hlater, hnode]
  exact hbecomes.children_eq

/-- A node that takes no children keeps those it has. -/
theorem children_eq (h : Keeps takes tree grown) (hid : id < tree.size) (htakes : ¬ takes id) :
    grown.children id = tree.children id := by
  obtain ⟨added, hchildren, hadded⟩ := h.exists_children hid
  have hnone : added = [] := Classical.byContradiction fun hsome ↦ htakes (hadded hsome)
  rw [hchildren, hnone, List.append_nil]

theorem exists_childrenOfKind (h : Keeps takes tree grown) (hid : id < tree.size)
    (kind : NodeKind) :
    ∃ added, grown.childrenOfKind id kind = tree.childrenOfKind id kind ++ added ∧
      (added ≠ [] → takes id) := by
  obtain ⟨added, hchildren, htakes⟩ := h.exists_children hid
  have hold : (tree.children id).filter (fun child ↦ grown.kind? child == some kind) =
      tree.childrenOfKind id kind := by
    apply List.filter_congr
    intro child hchild
    rw [h.kind?_eq (lt_of_mem_children hchild).2]
  refine ⟨added.filter fun child ↦ grown.kind? child == some kind, ?_, ?_⟩
  · rw [childrenOfKind, hchildren, List.filter_append, hold]
  · intro hsome
    apply htakes
    rintro rfl
    exact hsome rfl

/-- A node that takes no children keeps those it has, of each kind. -/
theorem childrenOfKind_eq (h : Keeps takes tree grown) (hid : id < tree.size) (htakes : ¬ takes id)
    (kind : NodeKind) : grown.childrenOfKind id kind = tree.childrenOfKind id kind := by
  rw [childrenOfKind, childrenOfKind, h.children_eq hid htakes]
  apply List.filter_congr
  intro child hchild
  rw [h.kind?_eq (lt_of_mem_children hchild).2]

/-- The first child of a kind stays the first. -/
theorem firstChildOfKind?_eq (h : Keeps takes tree grown) {kind : NodeKind} {child : Nat}
    (hchild : tree.firstChildOfKind? id kind = some child) :
    grown.firstChildOfKind? id kind = some child := by
  have hmem := lt_of_mem_children (List.mem_of_find?_eq_some hchild)
  obtain ⟨added, hchildren, -⟩ := h.exists_childrenOfKind (Nat.lt_trans hmem.1 hmem.2) kind
  rw [firstChildOfKind?, ← List.head?_filter] at hchild ⊢
  change (tree.childrenOfKind id kind).head? = some child at hchild
  change (grown.childrenOfKind id kind).head? = some child
  rw [hchildren, List.head?_append, hchild, Option.some_or]

end Keeps

end SyntaxTree

end VbaLint.Tree
