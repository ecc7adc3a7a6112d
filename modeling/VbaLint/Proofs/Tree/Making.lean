import VbaLint.Proofs.Tree.Keeping

/-!
# How trees are made

A tree is made from a root by adding nodes and widening ranges. Nodes are numbered in the order in which
they are added. A node that is asked for under one that is not there is put below the root.
-/

namespace VbaLint.Tree

open Source

inductive Change where
  | add (parent : Nat) (kind : NodeKind) (selection : Selection) (text : String)
  | widen (id : Nat) (selection : Selection)

structure Addition where
  parent : Nat
  kind : NodeKind
  text : String

def Change.addition? : Change → Option Addition
  | .add parent kind _ text => some ⟨parent, kind, text⟩
  | .widen _ _ => none

namespace SyntaxTree

variable {tree grown : SyntaxTree} {id : Nat} {kind : NodeKind} {text : String} {parent? : Option Nat}
  {additions : List Addition}

def change (tree : SyntaxTree) : Change → SyntaxTree
  | .add parent kind selection text => tree.addChild parent kind selection text
  | .widen id selection => tree.widen id selection

/-- The tree that some changes make of a root alone. -/
def made (text : String) (selection : Selection) (changes : List Change) : SyntaxTree :=
  changes.foldl change (ofRoot text selection)

/-- What is fixed of a node when it is made. -/
structure Shows (tree : SyntaxTree) (id : Nat) (kind : NodeKind) (text : String)
    (parent? : Option Nat) : Prop where
  kind?_eq : tree.kind? id = some kind
  text?_eq : tree.text? id = some text
  parent?_eq : tree.parent? id = parent?

/-- The nodes of the tree are a module and, in their order, the additions. Where the parent of an addition
was not there when it was made, the root stands for it. -/
structure IsMadeOf (tree : SyntaxTree) (text : String) (additions : List Addition) : Prop where
  size_eq : tree.size = additions.length + 1
  root : tree.Shows 0 .module text none
  added {place : Nat} {addition : Addition} : additions[place]? = some addition →
    tree.Shows (place + 1) addition.kind addition.text
      (some (if addition.parent ≤ place then addition.parent else 0))

/-- What a node shows stays when the tree is kept. -/
theorem Shows.keeps {takes : Nat → Prop} (h : tree.Shows id kind text parent?)
    (hkeeps : Keeps takes tree grown) : grown.Shows id kind text parent? := by
  have hid : id < tree.size := lt_size_of_kind? h.kind?_eq
  exact ⟨(hkeeps.kind?_eq hid).trans h.kind?_eq, (hkeeps.text?_eq hid).trans h.text?_eq,
    (hkeeps.parent?_eq hid).trans h.parent?_eq⟩

/-- Adding a node under one that is not there is adding it under the root. -/
theorem addChild_attachmentPoint (tree : SyntaxTree) (parent : Nat) (kind : NodeKind)
    (selection : Selection) (text : String) :
    tree.addChild (tree.attachmentPoint parent) kind selection text =
      tree.addChild parent kind selection text := by
  unfold addChild
  simp only [attachmentPoint_of_lt (tree.attachmentPoint_lt parent)]

theorem keeps_addChild (tree : SyntaxTree) (parent : Nat) (kind : NodeKind) (selection : Selection)
    (text : String) :
    Keeps (fun _ ↦ True) tree (tree.addChild parent kind selection text) := by
  rw [← addChild_attachmentPoint]
  exact (Keeps.refl _ tree).addChild (tree.attachmentPoint_lt parent) (fun _ ↦ trivial) kind selection text

theorem shows_addChild (tree : SyntaxTree) (parent : Nat) (kind : NodeKind) (selection : Selection)
    (text : String) :
    (tree.addChild parent kind selection text).Shows tree.size kind text
      (some (tree.attachmentPoint parent)) := by
  have hparent := tree.attachmentPoint_lt parent
  rw [← addChild_attachmentPoint]
  refine ⟨kind?_addChild_self hparent, text?_addChild_self hparent, ?_⟩
  rw [parent?_eq_bare?, bare?_addChild_self hparent]
  rfl

/-- A tree of its root alone is made without any node being asked for. -/
theorem isMadeOf_ofRoot (text : String) (selection : Selection) :
    (ofRoot text selection).IsMadeOf text [] where
  size_eq := rfl
  root := ⟨rfl, rfl, rfl⟩
  added h := by cases h

/-- A change adds the node that is asked for behind those that are there. -/
theorem IsMadeOf.change (h : tree.IsMadeOf text additions) (change : Change) :
    (tree.change change).IsMadeOf text (additions ++ change.addition?.toList) := by
  cases change with
  | widen id selection =>
    have hkeeps := (Keeps.refl (fun _ ↦ True) tree).widen id selection
    rw [Change.addition?, Option.toList_none, List.append_nil]
    exact ⟨(size_widen id selection).trans h.size_eq, h.root.keeps hkeeps,
      fun hat ↦ (h.added hat).keeps hkeeps⟩
  | add parent kind selection text =>
    have hkeeps := tree.keeps_addChild parent kind selection text
    refine ⟨?_, h.root.keeps hkeeps, fun {place addition} hat ↦ ?_⟩
    · rw [SyntaxTree.change, size_addChild, h.size_eq, List.length_append]
      rfl
    rw [Change.addition?, Option.toList_some, List.getElem?_append] at hat
    split at hat
    · exact (h.added hat).keeps hkeeps
    · next hlast =>
      obtain ⟨hzero, rfl⟩ : place - additions.length = 0 ∧ ⟨parent, kind, text⟩ = addition := by
        simpa [List.getElem?_singleton] using hat
      obtain rfl : place = additions.length := by omega
      have hnew := tree.shows_addChild parent kind selection text
      simp only [attachmentPoint, h.size_eq, Nat.lt_succ_iff] at hnew
      exact hnew

/-- Changes add the nodes that are asked for one behind the other. -/
theorem IsMadeOf.foldl (h : tree.IsMadeOf text additions) (changes : List Change) :
    (changes.foldl SyntaxTree.change tree).IsMadeOf text
      (additions ++ changes.filterMap (·.addition?)) := by
  induction changes generalizing tree additions with
  | nil => rwa [List.filterMap_nil, List.append_nil]
  | cons change changes ih =>
    have hrest := ih (h.change change)
    rw [List.append_assoc] at hrest
    rw [List.foldl_cons]
    cases haddition : change.addition? <;> simpa [haddition] using hrest

end SyntaxTree

end VbaLint.Tree
