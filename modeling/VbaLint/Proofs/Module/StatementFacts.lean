import VbaLint.Proofs.Module.StatementNodes
import VbaLint.Proofs.Tree.Keeping

/-!
# What stays true of the node of a statement

While a module is read, its tree grows below the nodes that hold statements and below new nodes, and
only ranges that take in further lines change. A fact about the node of a statement that holds when the
statement is laid out and survives such growth holds in the end.
-/

namespace VbaLint

open Source Statement Text Tree

namespace Tree

/-- The kinds of nodes that get further children when later lines are read. -/
def NodeKind.takesChildren (kind : NodeKind) : Bool :=
  kind.holdsStatements || kind == moduleDeclarations

namespace SyntaxTree

variable {tree grown : SyntaxTree} {id parent : Nat}

/-- The nodes of statements are those that stand below a holder. -/
theorem mem_statementNodes_iff_isStatement :
    id ∈ tree.statementNodes ↔ tree.isStatement id = true := by
  rw [statementNodes, List.mem_filter, List.mem_range]
  exact ⟨(·.2), fun h ↦ ⟨lt_size_of_isStatement h, h⟩⟩

structure GrowsTo (tree grown : SyntaxTree) : Prop where
  keeps : Keeps (fun id ↦ (tree.kind? id).any (·.takesChildren)) tree grown
  bare?_eq {id : Nat} {kind : NodeKind} : tree.kind? id = some kind → kind.isWidened = false →
    grown.bare? id = tree.bare? id

namespace GrowsTo

theorem refl (tree : SyntaxTree) : tree.GrowsTo tree := ⟨.refl _ tree, fun _ _ ↦ rfl⟩

/-- Widening grows the tree, if the node may be widened. -/
theorem widen (h : tree.GrowsTo grown) {kind : NodeKind} (hkind : grown.kind? id = some kind)
    (hwidened : kind.isWidened = true) (selection : Selection) :
    tree.GrowsTo (grown.widen id selection) := by
  refine ⟨h.keeps.widen id selection, fun {other known} hknown hfixed ↦ ?_⟩
  have hne : id ≠ other := by
    rintro rfl
    rw [h.keeps.kind?_eq (lt_size_of_kind? hknown), hknown] at hkind
    cases hkind
    rw [hfixed] at hwidened
    cases hwidened
  rw [bare?_widen, if_neg hne, h.bare?_eq hknown hfixed]

/-- A child grows the tree, if its parent takes children. -/
theorem addChild (h : tree.GrowsTo grown) (hparent : parent < grown.size)
    (htakes : parent < tree.size → (tree.kind? parent).any (·.takesChildren) = true)
    (kind : NodeKind) (selection : Selection) (text : String) :
    tree.GrowsTo (grown.addChild parent kind selection text) := by
  refine ⟨h.keeps.addChild hparent htakes kind selection text, fun hknown hfixed ↦ ?_⟩
  rw [bare?_addChild_of_lt (h.keeps.lt_size (lt_size_of_kind? hknown)), h.bare?_eq hknown hfixed]

theorem addsParts {start : Nat} {further : SyntaxTree} (h : tree.GrowsTo grown)
    (hparts : AddsParts start grown further) (hstart : tree.size ≤ start) :
    tree.GrowsTo further := by
  refine ⟨h.keeps.addsParts hparts hstart, fun hknown hfixed ↦ ?_⟩
  rw [hparts.bare?_eq (h.keeps.lt_size (lt_size_of_kind? hknown)), h.bare?_eq hknown hfixed]

/-- A statement is laid out below a node that holds statements. -/
theorem addStatement (h : tree.GrowsTo grown) {above : NodeKind}
    (habove : grown.kind? parent = some above) (hholds : above.holdsStatements = true)
    {kind : NodeKind} {selection : Selection} {text : String} {laidOut : SyntaxTree}
    (hparts : AddsParts grown.size (grown.addChild parent kind selection text) laidOut) :
    tree.GrowsTo laidOut := by
  have hsize : tree.size ≤ grown.size := by
    rcases Nat.eq_zero_or_pos tree.size with hzero | hpos
    · rw [hzero]
      exact Nat.zero_le _
    · have hlast := h.keeps.lt_size (Nat.sub_lt hpos Nat.one_pos)
      omega
  refine (h.addChild (lt_size_of_kind? habove) (fun hlt ↦ ?_) kind selection text).addsParts hparts
    hsize
  rw [← h.keeps.kind?_eq hlt, habove, Option.any_some, NodeKind.takesChildren, hholds,
    Bool.true_or]

end GrowsTo

section Added

variable {above : NodeKind} (habove : tree.kind? parent = some above)
  (hholds : above.holdsStatements = true) {kind : NodeKind} {selection : Selection} {text : String}
  (hparts : AddsParts tree.size (tree.addChild parent kind selection text) grown)
include habove hholds hparts

/-- Where a statement is laid out, its node is the only new one that stands for a statement. -/
theorem statementNodes_laidOut : grown.statementNodes = tree.statementNodes ++ [tree.size] := by
  rw [hparts.statementNodes_eq, statementNodes_addChild habove, hholds, if_pos rfl]

theorem isStatement_of_laidOut (h : grown.isStatement id = true) :
    tree.isStatement id = true ∨ id = tree.size := by
  rw [← mem_statementNodes_iff_isStatement, statementNodes_laidOut habove hholds hparts,
    List.mem_append] at h
  exact h.imp mem_statementNodes_iff_isStatement.1 List.mem_singleton.1

end Added

section LaidOut

variable {segment : Segment} (hparent : parent < tree.size)
include hparent

/-- A member is laid out with its block below a node of its own. -/
theorem addsParts_member {signature : Signature}
    (hshape : shapeOf segment.text = .procedureStart signature) :
    AddsParts tree.size
      (tree.addChild parent signature.kind segment.selection (String.ofList segment.text))
      ((tree.addMember parent signature segment).addChild tree.size .block .unset "") := by
  have hnode := takesParts_statement hparent segment
  rw [hshape] at hnode
  have hparts := addsParts_addMember hnode
  exact hparts.add (hparts.takesParts hnode) .block .unset ""

/-- Any other statement is laid out below a node of its own. -/
theorem addsParts_statement
    (hshape : ∀ signature, shapeOf segment.text ≠ .procedureStart signature) :
    AddsParts tree.size
      (tree.addChild parent (statementKind (shapeOf segment.text)) segment.selection
        (String.ofList segment.text))
      (tree.addStatement parent (shapeOf segment.text) segment) := by
  have hnode := takesParts_statement hparent segment
  rw [Shape.nodeKind_eq hshape] at hnode
  exact addsParts_addStatement hnode

/-- The node of a statement that is no header has its kind, its place and its text. -/
theorem bare?_statement (hshape : ∀ signature, shapeOf segment.text ≠ .procedureStart signature) :
    (tree.addStatement parent (shapeOf segment.text) segment).bare? tree.size =
      some ⟨statementKind (shapeOf segment.text), segment.selection, String.ofList segment.text,
        some parent, #[]⟩ := by
  rw [(addsParts_statement hparent hshape).bare?_eq (by simp), bare?_addChild_self hparent]

/-- The text of a member is that of its header. -/
theorem text?_member {signature : Signature}
    (hshape : shapeOf segment.text = .procedureStart signature) :
    ((tree.addMember parent signature segment).addChild tree.size .block .unset "").text?
      tree.size = some (String.ofList segment.text) := by
  rw [text?_eq_bare?, (addsParts_member hparent hshape).bare?_eq (by simp),
    bare?_addChild_self hparent]
  rfl

theorem text?_statement (hshape : ∀ signature, shapeOf segment.text ≠ .procedureStart signature) :
    (tree.addStatement parent (shapeOf segment.text) segment).text? tree.size =
      some (String.ofList segment.text) := by
  rw [text?_eq_bare?, bare?_statement hparent hshape]
  rfl

end LaidOut

end SyntaxTree

end Tree

namespace Reading

variable {reading : Reading} {segments : List Segment}

/-- A fact about the nodes of statements that holds where a statement is laid out and stays while the
tree grows. -/
structure Lasts (Q : SyntaxTree → Nat → Prop) : Prop where
  grow {tree grown : SyntaxTree} {id : Nat} (h : Q tree id) (hgrows : tree.GrowsTo grown)
    (hstatement : tree.isStatement id = true) : Q grown id
  member {tree : SyntaxTree} {parent : Nat} (hparent : parent < tree.size) {segment : Segment}
    {signature : Signature} (hshape : shapeOf segment.text = .procedureStart signature) :
    Q ((tree.addMember parent signature segment).addChild tree.size .block .unset "") tree.size
  statement {tree : SyntaxTree} {parent : Nat} (hparent : parent < tree.size) {segment : Segment}
    (hshape : ∀ signature, shapeOf segment.text ≠ .procedureStart signature) :
    Q (tree.addStatement parent (shapeOf segment.text) segment) tree.size

/-- Finding a parent for a statement grows the tree. -/
theorem growsTo_statementParent (hheld : reading.Holds segments) (selection : Selection) :
    reading.tree.GrowsTo (reading.statementParent selection).1 := by
  have hrefl := SyntaxTree.GrowsTo.refl reading.tree
  unfold Reading.statementParent
  split
  · next opened hopened =>
    obtain ⟨hblock, kind, hkind, hprocedure⟩ := hheld.stands.procedure_kind hopened
    have hwidened := NodeKind.isWidened_of_isProcedure hprocedure
    refine (hrefl.widen hblock rfl selection).widen ?_ hwidened selection
    rw [SyntaxTree.kind?_widen, hkind]
  · have hdeclarations := hheld.stands.declarations_kind
    have hlt := SyntaxTree.lt_size_of_kind? hdeclarations
    have helement := hrefl.addChild hlt (fun _ ↦ by rw [hdeclarations]; rfl)
      .moduleDeclarationsElement selection ""
    exact helement.widen ((SyntaxTree.kind?_addChild_of_lt hlt).trans hdeclarations) rfl selection

/-- Finding a parent for a statement adds no node of a statement. -/
theorem statementNodes_statementParent (hheld : reading.Holds segments) (selection : Selection) :
    (reading.statementParent selection).1.statementNodes = reading.tree.statementNodes := by
  unfold Reading.statementParent
  split
  · rw [SyntaxTree.statementNodes_widen, SyntaxTree.statementNodes_widen]
  · rw [SyntaxTree.statementNodes_widen,
      SyntaxTree.statementNodes_addChild hheld.stands.declarations_kind]
    exact List.append_nil _

/-- What stays true while a tree grows is kept by reading. -/
theorem preserves_of_growsTo {P : SyntaxTree → Prop}
    (hgrow : ∀ {tree grown : SyntaxTree}, P tree → tree.GrowsTo grown → P grown) :
    Preserves P where
  widen {tree} h id kind hkind hwidened selection :=
    hgrow h ((SyntaxTree.GrowsTo.refl tree).widen hkind hwidened selection)
  member {reading segments} hheld h segment signature hshape := by
    have hbody := hheld.stands.body_kind
    have hparts := SyntaxTree.addsParts_member (SyntaxTree.lt_size_of_kind? hbody) hshape
    exact hgrow h ((SyntaxTree.GrowsTo.refl reading.tree).addStatement hbody rfl hparts)
  statement {reading segments} hheld h segment hshape := by
    have hgrows := growsTo_statementParent hheld segment.selection
    obtain ⟨-, -, above, habove, hholds⟩ := hheld.statementParent segment.selection
    have hparts := SyntaxTree.addsParts_statement (SyntaxTree.lt_size_of_kind? habove) hshape
    exact hgrow h (hgrows.addStatement habove hholds hparts)

variable {Q : SyntaxTree → Nat → Prop}

theorem Lasts.preserves (h : Lasts Q) :
    Preserves fun tree ↦ ∀ id, tree.isStatement id = true → Q tree id where
  widen {tree} hall id kind hkind hwidened selection other hother := by
    rw [SyntaxTree.isStatement_widen] at hother
    exact h.grow (hall other hother)
      ((SyntaxTree.GrowsTo.refl tree).widen hkind hwidened selection) hother
  member {reading segments} hheld hall segment signature hshape other hother := by
    have hbody := hheld.stands.body_kind
    have hlt := SyntaxTree.lt_size_of_kind? hbody
    have hparts := SyntaxTree.addsParts_member hlt hshape
    rcases SyntaxTree.isStatement_of_laidOut hbody rfl hparts hother with hold | rfl
    · exact h.grow (hall other hold)
        ((SyntaxTree.GrowsTo.refl reading.tree).addStatement hbody rfl hparts) hold
    · exact h.member hlt hshape
  statement {reading segments} hheld hall segment hshape other hother := by
    have hgrows := growsTo_statementParent hheld segment.selection
    have hnodes := statementNodes_statementParent hheld segment.selection
    obtain ⟨-, -, above, habove, hholds⟩ := hheld.statementParent segment.selection
    rw [Reading.plainStatement] at hother ⊢
    dsimp only [Reading.attach] at hother ⊢
    generalize reading.statementParent segment.selection = place at hgrows hnodes habove hother ⊢
    have hlt := SyntaxTree.lt_size_of_kind? habove
    have hparts := SyntaxTree.addsParts_statement hlt hshape
    rcases SyntaxTree.isStatement_of_laidOut habove hholds hparts hother with hplace | rfl
    · rw [← SyntaxTree.mem_statementNodes_iff_isStatement, hnodes,
        SyntaxTree.mem_statementNodes_iff_isStatement] at hplace
      exact h.grow (hall other hplace) (hgrows.addStatement habove hholds hparts) hplace
    · exact h.statement hlt hshape

/-- What lasts holds of every statement node of a module that is read. -/
theorem Lasts.readModule (h : Lasts Q) (component text : String) {id : Nat}
    (hid : id ∈ (readModule component text).tree.statementNodes) :
    Q (readModule component text).tree id := by
  have hnone := List.forall₂_nil_right_iff.1 (holds_start component text.toList).renders
  refine h.preserves.readModule component text ?_ id
    (SyntaxTree.mem_statementNodes_iff_isStatement.1 hid)
  intro other hother
  rw [← SyntaxTree.mem_statementNodes_iff_isStatement, hnone] at hother
  cases hother

end Reading

end VbaLint
