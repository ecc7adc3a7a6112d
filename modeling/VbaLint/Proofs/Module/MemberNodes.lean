import VbaLint.Project.Declared
import VbaLint.Proofs.Module.StatementFacts

/-!
# Members in the tree of a module

Below the node of a member stand its name and its parameters, as they are read from its header, and
each parameter has its name below it. Reading on adds neither parameters nor names to a member.
So what is declared in the end is what is read from the header.
-/

namespace VbaLint

open Source Statement Text Tree

def Statement.Signature.parameterTexts (signature : Signature) : List (List Char) :=
  signature.parameters.elim [] fun list ↦ (items list.text).map (·.text)

namespace Tree.SyntaxTree

variable {tree grown : SyntaxTree} {id : Nat}

/-! ## Members and parameters -/

/-- The first identifier below the node is this name. -/
def IsNamed (tree : SyntaxTree) (id : Nat) (name : List Char) : Prop :=
  ∃ place, tree.nameBelow? id = some (String.ofList name, place)

/-- The node stands for a parameter with the given text, and for its name if it can be read. -/
structure IsParameter (tree : SyntaxTree) (id : Nat) (text : List Char) : Prop where
  kind_eq : tree.kind? id = some .arg
  text_eq : tree.text? id = some (String.ofList text)
  named {parameter : Parameter} : parameter? text = some parameter → tree.IsNamed id parameter.name

/-- The node stands for a member with the given signature: its name and its parameters are below it. -/
structure IsMember (tree : SyntaxTree) (id : Nat) (signature : Signature) : Prop where
  kind_eq : tree.kind? id = some signature.kind
  named : tree.IsNamed id signature.name.text
  parameters : List.Forall₂ tree.IsParameter (tree.childrenOfKind id .arg) signature.parameterTexts

theorem isNamed_iff {name : List Char} : tree.IsNamed id name ↔ ∃ child,
    tree.firstChildOfKind? id .identifier = some child ∧
      tree.text? child = some (String.ofList name) := by
  simp only [IsNamed, nameBelow?, bind, Option.bind_eq_some_iff, text?, Option.map_eq_some_iff]
  constructor
  · rintro ⟨_, child, hchild, node, hnode, hpair⟩
    exact ⟨child, hchild, node, hnode, congrArg Prod.fst (Option.some.inj hpair)⟩
  · rintro ⟨child, hchild, node, hnode, htext⟩
    exact ⟨node.selection, child, hchild, node, hnode, by rw [htext]⟩

section Keeps

variable {takes : Nat → Prop} (h : Keeps takes tree grown)
include h

theorem IsNamed.keep {name : List Char} (hname : tree.IsNamed id name) : grown.IsNamed id name := by
  obtain ⟨child, hchild, htext⟩ := isNamed_iff.1 hname
  rw [isNamed_iff]
  exact ⟨child, h.firstChildOfKind?_eq hchild, (h.text?_eq (lt_size_of_text? htext)).trans htext⟩

theorem IsParameter.keep {text : List Char} (hparameter : tree.IsParameter id text) :
    grown.IsParameter id text where
  kind_eq := (h.kind?_eq (lt_size_of_kind? hparameter.kind_eq)).trans hparameter.kind_eq
  text_eq := (h.text?_eq (lt_size_of_text? hparameter.text_eq)).trans hparameter.text_eq
  named hread := (hparameter.named hread).keep h

/-- A member that takes no children stays the same member. -/
theorem IsMember.keep {signature : Signature} (hmember : tree.IsMember id signature)
    (htakes : ¬ takes id) : grown.IsMember id signature := by
  have hlt : id < tree.size := lt_size_of_kind? hmember.kind_eq
  refine ⟨(h.kind?_eq hlt).trans hmember.kind_eq, hmember.named.keep h, ?_⟩
  rw [h.childrenOfKind_eq hlt htakes]
  exact List.Forall₂.imp (fun _ _ hparameter ↦ hparameter.keep h) hmember.parameters

end Keeps

/-! ## Laying out a member -/

section Parameters

variable {node : Nat} (statement : Segment)

theorem isNamed_addSpan (hnode : node < tree.size) (hnone : tree.childrenOfKind node .identifier = [])
    (span : Span) : (tree.addSpan node .identifier statement span).IsNamed node span.text := by
  rw [isNamed_iff]
  refine ⟨tree.size, ?_, ?_⟩
  · have hchildren : (tree.addSpan node .identifier statement span).childrenOfKind node .identifier =
        [tree.size] := by
      rw [addSpan, childrenOfKind_addChild_of_lt hnode hnode, hnone, if_pos ⟨rfl, rfl⟩]
      rfl
    rw [firstChildOfKind?, ← List.head?_filter]
    exact congrArg List.head? hchildren
  · exact text?_addChild_self hnode

/-- The node of a parameter and its name come behind those below the member. -/
theorem addParameter_spec (hnode : node < tree.size) (item : Span) :
    Keeps (· = node) tree (tree.addParameter node statement item) ∧
      (tree.addParameter node statement item).childrenOfKind node .arg =
        tree.childrenOfKind node .arg ++ [tree.size] ∧
      (tree.addParameter node statement item).IsParameter tree.size item.text := by
  let begun := tree.addSpan node .arg statement item
  have hsize : begun.size = tree.size + 1 := size_addChild
  have hnew : tree.size < begun.size := by omega
  have hbegun : Keeps (· = node) tree begun :=
    (Keeps.refl (· = node) tree).addChild hnode (fun _ ↦ rfl) .arg _ _
  have hargs : begun.childrenOfKind node .arg = tree.childrenOfKind node .arg ++ [tree.size] :=
    (childrenOfKind_addChild_of_lt hnode hnode .arg).trans (by rw [if_pos ⟨rfl, rfl⟩])
  have hkind : begun.kind? tree.size = some .arg := kind?_addChild_self hnode
  have htext : begun.text? tree.size = some (String.ofList item.text) := text?_addChild_self hnode
  have hbare : begun.childrenOfKind tree.size .identifier = [] := childrenOfKind_addChild_self
  unfold addParameter
  split
  · next hunread =>
    refine ⟨hbegun, hargs, hkind, htext, fun hread ↦ ?_⟩
    rw [hunread] at hread
    cases hread
  · next declared hdeclared =>
    let name : Span := ⟨declared.name, item.offset + offsetOf declared.name item.text⟩
    have hnamed : Keeps (· = tree.size) begun (begun.addSpan tree.size .identifier statement name) :=
      (Keeps.refl (· = tree.size) begun).addChild hnew (fun _ ↦ rfl) .identifier _ _
    refine ⟨?_, ?_, ?_, ?_, fun hread ↦ ?_⟩
    · exact hbegun.addChild hnew (fun hlt ↦ absurd hlt (Nat.lt_irrefl _)) .identifier _ _
    · rw [← hargs]
      exact hnamed.childrenOfKind_eq (by omega) (by omega) .arg
    · exact (hnamed.kind?_eq hnew).trans hkind
    · exact (hnamed.text?_eq hnew).trans htext
    · rw [hdeclared] at hread
      cases hread
      exact isNamed_addSpan statement hnew hbare name

/-- The nodes of some parameters come in order. -/
theorem foldl_addParameter_spec (hnode : node < tree.size) (list : List Span) :
    ∃ args, let laidOut := list.foldl (fun grown item ↦ grown.addParameter node statement item) tree
      Keeps (· = node) tree laidOut ∧
        laidOut.childrenOfKind node .arg = tree.childrenOfKind node .arg ++ args ∧
        List.Forall₂ laidOut.IsParameter args (list.map (·.text)) := by
  induction list generalizing tree with
  | nil => exact ⟨[], Keeps.refl _ tree, (List.append_nil _).symm, .nil⟩
  | cons item list ih =>
    obtain ⟨hkeeps, hargs, hparameter⟩ := addParameter_spec statement hnode item
    obtain ⟨args, hrest, hlater, hparameters⟩ := ih (hkeeps.lt_size hnode)
    refine ⟨tree.size :: args, ?_, ?_, ?_⟩
    · exact hkeeps.trans hrest
    · rw [List.foldl_cons, hlater, hargs, List.append_assoc]
      rfl
    · exact .cons (hparameter.keep hrest) hparameters

end Parameters

/-- What is laid out for a header is a member with the signature of the header. -/
theorem isMember_addMember {parent : Nat} (hparent : parent < tree.size) (signature : Signature)
    (segment : Segment) :
    (tree.addMember parent signature segment).IsMember tree.size signature := by
  let begun := tree.addChild parent signature.kind segment.selection (String.ofList segment.text)
  let named := begun.addSpan tree.size .identifier segment signature.name
  have hsize : begun.size = tree.size + 1 := size_addChild
  have hnew : tree.size < begun.size := by omega
  have hnamed : named.IsNamed tree.size signature.name.text :=
    isNamed_addSpan segment hnew childrenOfKind_addChild_self signature.name
  have hkind : named.kind? tree.size = some signature.kind :=
    (kind?_addChild_of_lt hnew).trans (kind?_addChild_self hparent)
  have hbare : begun.childrenOfKind tree.size .arg = [] := childrenOfKind_addChild_self
  have hnone : named.childrenOfKind tree.size .arg = [] :=
    (childrenOfKind_addChild_of_lt hnew hnew .arg).trans (by simp [hbare])
  unfold addMember
  dsimp only
  cases hparameters : signature.parameters with
  | none =>
    refine ⟨hkind, hnamed, ?_⟩
    have htexts : signature.parameterTexts = [] := by rw [Signature.parameterTexts, hparameters]; rfl
    rw [htexts]
    exact hnone ▸ .nil
  | some list =>
    let shift := fun item : Span ↦ (⟨item.text, list.offset + item.offset⟩ : Span)
    have hlt : tree.size < named.size := Nat.lt_trans hnew (by simp [named, addSpan])
    obtain ⟨args, hkeeps, hargs, hall⟩ :=
      foldl_addParameter_spec segment hlt ((items list.text).map shift)
    rw [List.foldl_map] at hkeeps hargs hall
    rw [hnone, List.nil_append] at hargs
    refine ⟨(hkeeps.kind?_eq hlt).trans hkind, hnamed.keep hkeeps, ?_⟩
    have htexts : signature.parameterTexts = ((items list.text).map shift).map (·.text) := by
      rw [Signature.parameterTexts, hparameters, List.map_map]
      rfl
    rw [htexts]
    exact hargs.symm ▸ hall

/-- A node of another kind below a member leaves it the same member. -/
theorem IsMember.addChild {signature : Signature} (h : tree.IsMember id signature)
    {kind : NodeKind} (hkind : kind ≠ .arg) (selection : Selection) (text : String) :
    (tree.addChild id kind selection text).IsMember id signature := by
  have hlt : id < tree.size := lt_size_of_kind? h.kind_eq
  have hkeeps : Keeps (· = id) tree (tree.addChild id kind selection text) :=
    (Keeps.refl (· = id) tree).addChild hlt (fun _ ↦ rfl) kind selection text
  refine ⟨(hkeeps.kind?_eq hlt).trans h.kind_eq, h.named.keep hkeeps, ?_⟩
  rw [childrenOfKind_addChild_of_lt hlt hlt, if_neg (by simp [hkind]), List.append_nil]
  exact List.Forall₂.imp (fun _ _ hparameter ↦ hparameter.keep hkeeps) h.parameters

/-! ## The members of a tree -/

/-- All nodes of statements that are headers stand for members with the signatures of these. -/
def LaysOutMembers (tree : SyntaxTree) : Prop :=
  ∀ id text signature, tree.isStatement id = true → tree.text? id = some (String.ofList text) →
    shapeOf text = .procedureStart signature → tree.IsMember id signature

theorem not_takesChildren_of_isProcedure {kind : NodeKind} (h : kind.isProcedure = true) :
    kind.takesChildren = false := by
  cases kind <;> first | rfl | cases h

end Tree.SyntaxTree

/-! ## Reading a module -/

namespace Reading

/-- A header stays laid out as a member. -/
theorem lasts_isMember : Lasts fun tree id ↦ ∀ text signature,
    tree.text? id = some (String.ofList text) → shapeOf text = .procedureStart signature →
      tree.IsMember id signature where
  grow {tree grown id} h hgrows hstatement text signature htext hshape := by
    have hlt := SyntaxTree.lt_size_of_isStatement hstatement
    rw [hgrows.keeps.text?_eq hlt] at htext
    have hmember := h text signature htext hshape
    have hprocedure := isProcedure_of_signature? (signature?_of_shapeOf hshape)
    refine hmember.keep hgrows.keeps ?_
    rw [hmember.kind_eq, Option.any_some,
      SyntaxTree.not_takesChildren_of_isProcedure hprocedure]
    exact Bool.false_ne_true
  member {tree parent} hparent segment signature hshape text other htext hother := by
    rw [SyntaxTree.text?_member hparent hshape] at htext
    rw [← String.ofList_inj.1 (Option.some.inj htext), hshape] at hother
    cases hother
    -- The block is the only child that a member gets behind its parameters.
    exact (SyntaxTree.isMember_addMember hparent signature segment).addChild (by decide) .unset ""
  statement {tree parent} hparent segment hshape text signature htext hother := by
    rw [SyntaxTree.text?_statement hparent hshape] at htext
    rw [← String.ofList_inj.1 (Option.some.inj htext)] at hother
    exact absurd hother (hshape signature)

end Reading

/-- Every statement of a module that is a header stands as a member with its signature. -/
theorem laysOutMembers_readModule (component text : String) :
    (readModule component text).tree.LaysOutMembers := by
  intro id header signature hstatement
  exact Reading.lasts_isMember.readModule component text
    (SyntaxTree.mem_statementNodes_iff_isStatement.2 hstatement) header signature

end VbaLint
