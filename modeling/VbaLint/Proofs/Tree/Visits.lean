import VbaLint.Proofs.Tree.Grammar
import VbaLint.Proofs.Tree.Preorder

/-!
# What a walk visits

A walk visits the nodes at or below its top and enters each of them. In a tree that obeys the grammar the
kind of a node limits what may stand above it.
-/

namespace VbaLint.Tree

namespace Visit

def kind : Visit → NodeKind
  | enter kind _ | leave kind _ => kind

def node : Visit → Nat
  | enter _ id | leave _ id => id

end Visit

namespace NodeKind

/-- A node of the kind may have a child of the other kind. -/
def mayHold : NodeKind → NodeKind → Bool
  | module, kind => kind == moduleDeclarations || kind == moduleBody
  | moduleDeclarations, kind => kind == moduleDeclarationsElement
  | moduleDeclarationsElement, kind | block, kind => kind.isPlainStatement
  | moduleBody, kind => kind.isProcedure
  | subStmt, kind | functionStmt, kind | propertyGetStmt, kind | propertyLetStmt, kind
  | propertySetStmt, kind => kind == identifier || kind == arg || kind == block
  | letStmt, kind | setStmt, kind | constSubStmt, kind => kind == identifier || kind == expression
  | callStmt, kind | otherStmt, kind => kind == expression
  | variableStmt, kind => kind == variableSubStmt
  | constStmt, kind => kind == constSubStmt
  | arg, kind | variableSubStmt, kind | typeStmt, kind | enumStmt, kind | expression, kind =>
    kind == identifier
  | optionExplicitStmt, _ | optionBaseStmt, _ | optionCompareStmt, _ | optionPrivateModuleStmt, _
  | attributeStmt, _ | identifier, _ => false

theorem mayHold_of_mem {above kind : NodeKind} {below : List NodeKind} (h : above.Admits below)
    (hkind : kind ∈ below) : above.mayHold kind = true := by
  cases above with
  | moduleDeclarations | variableStmt | constStmt | expression =>
    rw [h kind hkind]
    rfl
  | moduleBody | block => exact h kind hkind
  | moduleDeclarationsElement =>
    obtain ⟨statement, hplain, rfl⟩ := h
    rw [List.mem_singleton.1 hkind]
    exact hplain
  | subStmt | functionStmt | propertyGetStmt | propertyLetStmt | propertySetStmt =>
    obtain ⟨parameters, rfl⟩ := h
    simp only [List.cons_append, List.mem_cons, List.mem_append, List.mem_replicate,
      List.not_mem_nil, or_false] at hkind
    rcases hkind with rfl | ⟨-, rfl⟩ | rfl <;> rfl
  | _ =>
    simp only [Admits] at h
    grind [mayHold]

/-! Sections, members and blocks stand in one kind of node each. -/

section MayHold

variable {above kind : NodeKind}

/-- A module stands below nothing. -/
theorem mayHold_module (above : NodeKind) : above.mayHold module = false := by
  cases above <;> rfl

/-- The sections of a module stand below the module. -/
theorem eq_module_of_mayHold (hkind : kind = moduleDeclarations ∨ kind = moduleBody)
    (h : above.mayHold kind = true) : above = module := by
  rcases hkind with rfl | rfl <;> cases above <;>
    first | rfl | exact absurd h Bool.false_ne_true

/-- Members stand below the body. -/
theorem eq_moduleBody_of_mayHold (hkind : kind.isProcedure = true) (h : above.mayHold kind = true) :
    above = moduleBody := by
  cases kind <;> first
    | exact absurd hkind Bool.false_ne_true
    | cases above <;> first | rfl | exact absurd h Bool.false_ne_true

theorem isProcedure_of_mayHold_block (h : above.mayHold block = true) : above.isProcedure = true := by
  cases above <;> first | rfl | exact absurd h Bool.false_ne_true

end MayHold

end NodeKind

namespace SyntaxTree

variable {tree : SyntaxTree} {top id parent : Nat} {kind above : NodeKind}

theorem exists_kind?_of_lt (h : id < tree.size) : ∃ kind, tree.kind? id = some kind := by
  have hnode : tree.node? id = some tree.nodes[id] := Array.getElem?_eq_getElem h
  exact ⟨_, by rw [kind?, hnode, Option.map_some]⟩

/-- A walk visits nodes at or below its top. -/
theorem kind?_of_mem_visitsFrom {visit : Visit} (h : visit ∈ tree.visitsFrom top) :
    tree.kind? visit.node = some visit.kind ∧ visit.node ∈ tree.preorderFrom top := by
  induction hrank : tree.size - top using Nat.strongRecOn generalizing top with
  | ind rank ih =>
    cases htop : tree.kind? top with
    | none =>
      rw [visitsFrom_of_no_kind htop] at h
      cases h
    | some known =>
      rw [preorderFrom_eq]
      rw [visitsFrom_of_kind htop] at h
      rcases List.mem_append.1 h with h | h
      · rcases List.mem_cons.1 h with rfl | h
        · exact ⟨htop, List.mem_cons_self⟩
        · obtain ⟨child, hchild, h⟩ := List.mem_flatMap.1 h
          obtain ⟨hlt, hsize⟩ := lt_of_mem_children hchild
          obtain ⟨hkind, hbelow⟩ := ih (tree.size - child) (by omega) h rfl
          exact ⟨hkind, List.mem_cons_of_mem _ (List.mem_flatMap.2 ⟨child, hchild, hbelow⟩)⟩
      · split at h
        · cases List.mem_singleton.1 h
          exact ⟨htop, List.mem_cons_self⟩
        · cases h

/-- A walk enters all nodes at or below its top. -/
theorem enter_mem_visitsFrom (hkind : tree.kind? id = some kind) (h : id ∈ tree.preorderFrom top) :
    .enter kind id ∈ tree.visitsFrom top := by
  induction hrank : tree.size - top using Nat.strongRecOn generalizing top with
  | ind rank ih =>
    rw [preorderFrom_eq] at h
    rcases List.mem_cons.1 h with rfl | h
    · rw [visitsFrom_of_kind hkind]
      exact List.mem_append_left _ List.mem_cons_self
    · obtain ⟨child, hchild, hbelow⟩ := List.mem_flatMap.1 h
      obtain ⟨hlt, hsize⟩ := lt_of_mem_children hchild
      have hvisit := ih (tree.size - child) (by omega) hbelow rfl
      obtain ⟨known, htop⟩ := exists_kind?_of_lt (Nat.lt_trans hlt hsize)
      rw [visitsFrom_of_kind htop]
      exact List.mem_append_left _
        (List.mem_cons_of_mem _ (List.mem_flatMap.2 ⟨child, hchild, hvisit⟩))

namespace Obeys

variable (h : tree.Obeys)
include h

/-- The kind of a node is one that the kind of the node above it may hold. -/
theorem mayHold_above (hparent : tree.parent? id = some parent) (hkind : tree.kind? id = some kind)
    (habove : tree.kind? parent = some above) : above.mayHold kind = true := by
  have hmem : kind ∈ tree.childKinds parent :=
    List.mem_filterMap.2 ⟨id, mem_children.2 hparent, hkind⟩
  exact NodeKind.mayHold_of_mem (h.admits habove) hmem

/-- A node other than the root stands below a node that may hold it. -/
theorem exists_above (hkind : tree.kind? id = some kind) (hid : id ≠ 0) :
    ∃ parent above, tree.parent? id = some parent ∧ tree.kind? parent = some above ∧
      above.mayHold kind = true := by
  have hlt := lt_size_of_kind? hkind
  cases hparent : tree.parent? id with
  | none =>
    have hroot : 0 ∈ tree.ancestors id := zero_mem_ancestors_iff.2 ⟨Nat.pos_of_ne_zero hid, hlt⟩
    rw [ancestors_of_no_parent hparent] at hroot
    cases hroot
  | some parent =>
    obtain ⟨above, habove⟩ := exists_kind?_of_lt (Nat.lt_trans (parent_lt hparent) hlt)
    exact ⟨parent, above, rfl, habove, h.mayHold_above hparent hkind habove⟩

/-- A property of kinds that passes on from a kind to those that it may hold passes on from a node to all
nodes below it. -/
theorem kind_below {p : NodeKind → Bool}
    (hpasses : ∀ above kind, p above = true → above.mayHold kind = true → p kind = true)
    (habove : tree.kind? top = some above) (hp : p above = true) (hbelow : top ∈ tree.ancestors id)
    (hkind : tree.kind? id = some kind) : p kind = true := by
  induction id using Nat.strongRecOn generalizing kind with
  | ind id ih =>
    have hid : id ≠ 0 := Nat.ne_of_gt (Nat.lt_of_le_of_lt (Nat.zero_le _) (lt_of_mem_ancestors hbelow))
    obtain ⟨parent, holder, hparent, hholder, hholds⟩ := h.exists_above hkind hid
    apply hpasses holder kind ?_ hholds
    rw [ancestors_of_parent hparent] at hbelow
    rcases List.mem_cons.1 hbelow with rfl | hbelow
    · cases habove.symm.trans hholder
      exact hp
    · exact ih parent (parent_lt hparent) hbelow hholder

/-- The root alone is a module. -/
theorem eq_zero_of_module (hkind : tree.kind? id = some .module) : id = 0 := by
  by_contra hid
  obtain ⟨parent, above, -, -, hholds⟩ := h.exists_above hkind hid
  rw [NodeKind.mayHold_module] at hholds
  cases hholds

/-- There is one section of each kind. -/
theorem eq_of_section {left right : Nat} (hkind : kind = .moduleDeclarations ∨ kind = .moduleBody)
    (hleft : tree.kind? left = some kind) (hright : tree.kind? right = some kind) : left = right := by
  have hchild {id : Nat} (hid : tree.kind? id = some kind) : id ∈ tree.children 0 := by
    have hroot : id ≠ 0 := by
      rintro rfl
      rcases hkind with rfl | rfl <;> cases h.root.symm.trans hid
    obtain ⟨parent, above, hparent, habove, hholds⟩ := h.exists_above hid hroot
    cases NodeKind.eq_module_of_mayHold hkind hholds
    rw [h.eq_zero_of_module habove] at hparent
    exact mem_children.2 hparent
  have hkinds : ((tree.children 0).map tree.kind?).Nodup := by
    have hadmits : tree.childKinds 0 = [.moduleDeclarations, .moduleBody] := h.admits h.root
    rw [tree.map_kind?_children, hadmits]
    decide
  exact List.inj_on_of_nodup_map hkinds (hchild hleft) (hchild hright) (hleft.trans hright.symm)

/-- Members stand below the body. -/
theorem exists_body (hkind : tree.kind? id = some kind) (hmember : kind.isProcedure = true) :
    ∃ body, tree.parent? id = some body ∧ tree.kind? body = some .moduleBody := by
  have hroot : id ≠ 0 := by
    rintro rfl
    cases h.root.symm.trans hkind
    cases hmember
  obtain ⟨parent, above, hparent, habove, hholds⟩ := h.exists_above hkind hroot
  rw [NodeKind.eq_moduleBody_of_mayHold hmember hholds] at habove
  exact ⟨parent, hparent, habove⟩

/-- A walk comes to the members in the order of their numbers. -/
theorem pairwise_members_preorder : tree.preorder.Pairwise fun left right ↦
    (tree.kind? left).any (·.isProcedure) = true →
      (tree.kind? right).any (·.isProcedure) = true → left < right := by
  refine (tree.pairwise_siblings_preorderFrom 0).imp ?_
  intro left right hsiblings hleft hright
  obtain ⟨kind, hkind, hmember⟩ := (Option.any_eq_true _ _).1 hleft
  obtain ⟨kind', hkind', hmember'⟩ := (Option.any_eq_true _ _).1 hright
  obtain ⟨body, hparent, hbody⟩ := h.exists_body hkind hmember
  obtain ⟨body', hparent', hbody'⟩ := h.exists_body hkind' hmember'
  cases h.eq_of_section (.inr rfl) hbody hbody'
  exact hsiblings body hparent hparent'

/-- Below an assignment with `Set` stand names and expressions alone. -/
theorem kind_below_setStmt (htop : tree.kind? top = some .setStmt) (hbelow : top ∈ tree.ancestors id)
    (hkind : tree.kind? id = some kind) : kind = .identifier ∨ kind = .expression := by
  obtain ⟨child, hchild, hplace⟩ := mem_ancestors_iff_exists_child.1 hbelow
  obtain ⟨part, hpart⟩ := exists_kind?_of_lt (lt_of_mem_children hchild).2
  have hholds := h.mayHold_above (mem_children.1 hchild) hpart htop
  have hsmall : (part == .identifier || part == .expression) = true := hholds
  have hfinal : (kind == .identifier || kind == .expression) = true := by
    rcases hplace with rfl | hplace
    · cases hpart.symm.trans hkind
      exact hsmall
    · refine h.kind_below (p := fun kind ↦ kind == .identifier || kind == .expression) ?_ hpart
        hsmall hplace hkind
      intro above kind habove hholds
      rcases Bool.or_eq_true_iff.1 habove with heq | heq
      · rw [eq_of_beq heq] at hholds
        cases hholds
      · rw [eq_of_beq heq] at hholds
        rw [show (kind == .identifier) = true from hholds, Bool.true_or]
  simpa using hfinal

/-- No two assignments with `Set` stand above one node. -/
theorem eq_of_setStmt {left right : Nat} (hleft : tree.kind? left = some .setStmt)
    (hright : tree.kind? right = some .setStmt) (habove : left ∈ tree.ancestors id)
    (habove' : right ∈ tree.ancestors id) : left = right := by
  have hapart {left right : Nat} (hleft : tree.kind? left = some .setStmt)
      (hright : tree.kind? right = some .setStmt) : left ∉ tree.ancestors right := fun hbelow ↦ by
    rcases h.kind_below_setStmt hleft hbelow hright with heq | heq <;> cases heq
  rcases above_or_below (List.mem_cons_of_mem id habove) (List.mem_cons_of_mem id habove') with
    heq | hbelow | hbelow
  · exact heq
  · exact absurd hbelow (hapart hleft hright)
  · exact absurd hbelow (hapart hright hleft)

end Obeys

end SyntaxTree

end VbaLint.Tree
