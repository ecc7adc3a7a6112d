import Mathlib.Data.List.Nodup
import VbaLint.Tree.Traversal

/-!
# The depth-first order

Below a node lie the nodes that have it among their ancestors. The depth-first order from the root
lists every node of a tree, and lists it once.
-/

namespace VbaLint.Tree.SyntaxTree

variable {tree : SyntaxTree}

/-! ## Ancestors -/

/-- The way up from a node goes on as the way up from its parent. -/
theorem ancestors_of_parent {id parent : Nat} (h : tree.parent? id = some parent) :
    tree.ancestors id = parent :: tree.ancestors parent := by
  rw [ancestors]
  split
  · next hnone => rw [h] at hnone; cases hnone
  · next other hother =>
    rw [h] at hother
    cases hother
    rfl

/-- What stands below a node that is no member stands in the same member. -/
theorem enclosingProcedure?_of_parent {id parent : Nat} {kind : NodeKind}
    (hparent : tree.parent? id = some parent) (hkind : tree.kind? parent = some kind)
    (hplain : kind.isProcedure = false) :
    tree.enclosingProcedure? id = tree.enclosingProcedure? parent := by
  rw [enclosingProcedure?, ancestorWhere?, ancestors_of_parent hparent, List.find?_cons, hkind,
    Option.any_some, hplain]
  rfl

theorem ancestors_of_no_parent {id : Nat} (h : tree.parent? id = none) :
    tree.ancestors id = [] := by
  rw [ancestors]
  split
  · rfl
  · next other hother => rw [h] at hother; cases hother

/-- A node has a greater number than those above it. -/
theorem lt_of_mem_ancestors {id ancestor : Nat} (h : ancestor ∈ tree.ancestors id) :
    ancestor < id := by
  induction id using Nat.strongRecOn with
  | ind id ih =>
    cases hparent : tree.parent? id with
    | none =>
      rw [ancestors_of_no_parent hparent] at h
      cases h
    | some parent =>
      have hlt : parent < id := parent_lt hparent
      rw [ancestors_of_parent hparent] at h
      rcases List.mem_cons.1 h with rfl | h
      · exact hlt
      · exact Nat.lt_trans (ih parent hlt h) hlt

/-- What lies below a node is one of its children or lies below one. -/
theorem mem_ancestors_iff_exists_child {id below : Nat} :
    id ∈ tree.ancestors below ↔
      ∃ child ∈ tree.children id, below = child ∨ child ∈ tree.ancestors below := by
  induction below using Nat.strongRecOn with
  | ind below ih =>
    cases hparent : tree.parent? below with
    | none =>
      rw [ancestors_of_no_parent hparent]
      constructor
      · intro h
        cases h
      · rintro ⟨child, hchild, rfl | h⟩
        · rw [mem_children.1 hchild] at hparent
          cases hparent
        · cases h
    | some parent =>
      have hlt : parent < below := parent_lt hparent
      rw [ancestors_of_parent hparent, List.mem_cons, ih parent hlt]
      constructor
      · rintro (rfl | ⟨child, hchild, h⟩)
        · exact ⟨below, mem_children.2 hparent, .inl rfl⟩
        · exact ⟨child, hchild, .inr (List.mem_cons.2 (h.imp_left Eq.symm))⟩
      · rintro ⟨child, hchild, rfl | h⟩
        · rw [mem_children.1 hchild] at hparent
          exact .inl (Option.some.inj hparent)
        · exact .inr ⟨child, hchild, (List.mem_cons.1 h).imp_left Eq.symm⟩

/-- Of two nodes on the way up from one node, one lies above the other. -/
theorem above_or_below {below left right : Nat} (hleft : left ∈ below :: tree.ancestors below)
    (hright : right ∈ below :: tree.ancestors below) :
    left = right ∨ left ∈ tree.ancestors right ∨ right ∈ tree.ancestors left := by
  induction below using Nat.strongRecOn with
  | ind below ih =>
    rcases List.mem_cons.1 hleft with rfl | hleft
    · rcases List.mem_cons.1 hright with rfl | hright
      · exact .inl rfl
      · exact .inr (.inr hright)
    rcases List.mem_cons.1 hright with rfl | hright
    · exact .inr (.inl hleft)
    cases hparent : tree.parent? below with
    | none =>
      rw [ancestors_of_no_parent hparent] at hleft
      cases hleft
    | some parent =>
      rw [ancestors_of_parent hparent] at hleft hright
      exact ih parent (parent_lt hparent) hleft hright

theorem sibling_not_mem_ancestors {id child sibling : Nat} (hchild : child ∈ tree.children id)
    (hsibling : sibling ∈ tree.children id) : sibling ∉ tree.ancestors child := by
  intro h
  have hlt := (lt_of_mem_children hsibling).1
  rw [ancestors_of_parent (mem_children.1 hchild)] at h
  rcases List.mem_cons.1 h with rfl | h
  · exact Nat.lt_irrefl _ hlt
  · exact Nat.lt_asymm hlt (lt_of_mem_ancestors h)

/-- The root stands above every other node. -/
theorem zero_mem_ancestors_iff {id : Nat} :
    0 ∈ tree.ancestors id ↔ 0 < id ∧ id < tree.size := by
  induction id using Nat.strongRecOn with
  | ind id ih =>
    cases hparent : tree.parent? id with
    | none =>
      rw [ancestors_of_no_parent hparent]
      constructor
      · intro h
        cases h
      · rintro ⟨hpos, hlt⟩
        have hnode : tree.nodes[id]? = some tree.nodes[id] := Array.getElem?_eq_getElem hlt
        have hnone : tree.nodes[id].parent = none := by
          rw [parent?, node?, hnode] at hparent
          exact hparent
        have hzero := (tree.linked.parent_eq_none_iff hnode).1 hnone
        omega
    | some parent =>
      have hlt : parent < id := parent_lt hparent
      have hsize : id < tree.size := (lt_of_mem_children (mem_children.2 hparent)).2
      rw [ancestors_of_parent hparent, List.mem_cons, ih parent hlt]
      omega

/-! ## The order -/

/-- A node comes first, and then what is below each of its children. -/
theorem preorderFrom_eq (tree : SyntaxTree) (id : Nat) :
    tree.preorderFrom id = id :: (tree.children id).flatMap tree.preorderFrom := by
  rw [preorderFrom]
  simp only [List.flatMap_subtype, List.unattach_attach]

/-- The walk from a node comes to exactly what stands below it. -/
theorem mem_preorderFrom {id below : Nat} :
    below ∈ tree.preorderFrom id ↔ below = id ∨ id ∈ tree.ancestors below := by
  induction hrank : tree.size - id using Nat.strongRecOn generalizing id with
  | ind rank ih =>
    rw [preorderFrom_eq, List.mem_cons, List.mem_flatMap, mem_ancestors_iff_exists_child]
    refine or_congr_right (exists_congr fun child ↦ and_congr_right fun hchild ↦ ?_)
    obtain ⟨hlt, hsize⟩ := lt_of_mem_children hchild
    exact ih (tree.size - child) (by omega) rfl

/-- No node is listed twice below another. -/
theorem nodup_children (tree : SyntaxTree) (id : Nat) : (tree.children id).Nodup := by
  unfold children
  cases hnode : tree.node? id with
  | none => exact List.nodup_nil
  | some node =>
    rw [Option.map_some, Option.getD_some, tree.linked.children_eq hnode]
    exact List.nodup_range.filter _

/-- No node is at or below two children of one node. -/
theorem not_mem_preorderFrom_sibling {id left right below : Nat} (hleft : left ∈ tree.children id)
    (hright : right ∈ tree.children id) (hne : left ≠ right)
    (hbelow : below ∈ tree.preorderFrom left) : below ∉ tree.preorderFrom right := by
  intro hbelow'
  have habove := List.mem_cons.2 ((mem_preorderFrom.1 hbelow).imp_left Eq.symm)
  have habove' := List.mem_cons.2 ((mem_preorderFrom.1 hbelow').imp_left Eq.symm)
  rcases above_or_below habove habove' with heq | h | h
  · exact hne heq
  · exact sibling_not_mem_ancestors hright hleft h
  · exact sibling_not_mem_ancestors hleft hright h

theorem nodup_preorderFrom (tree : SyntaxTree) (id : Nat) : (tree.preorderFrom id).Nodup := by
  induction hrank : tree.size - id using Nat.strongRecOn generalizing id with
  | ind rank ih =>
    rw [preorderFrom_eq, List.nodup_cons, List.nodup_flatMap]
    refine ⟨?_, ?_, ?_⟩
    · intro h
      obtain ⟨child, hchild, hmem⟩ := List.mem_flatMap.1 h
      have hlt := (lt_of_mem_children hchild).1
      rcases mem_preorderFrom.1 hmem with rfl | hmem
      · exact Nat.lt_irrefl _ hlt
      · exact Nat.lt_asymm hlt (lt_of_mem_ancestors hmem)
    · intro child hchild
      obtain ⟨hlt, hsize⟩ := lt_of_mem_children hchild
      exact ih (tree.size - child) (by omega) child rfl
    · refine (tree.nodup_children id).imp_of_mem ?_
      intro left right hleft hright hne below hbelow hbelow'
      exact not_mem_preorderFrom_sibling hleft hright hne hbelow hbelow'

/-- The depth-first order lists every node. -/
theorem mem_preorder {id : Nat} : id ∈ tree.preorder ↔ id < tree.size := by
  have hpos := tree.size_pos
  rw [preorder, mem_preorderFrom, zero_mem_ancestors_iff]
  omega

/-- The depth-first order lists no node twice. -/
theorem nodup_preorder (tree : SyntaxTree) : tree.preorder.Nodup := tree.nodup_preorderFrom 0

theorem pairwise_children (tree : SyntaxTree) (id : Nat) :
    (tree.children id).Pairwise (· < ·) := by
  unfold children
  cases hnode : tree.node? id with
  | none => exact .nil
  | some node =>
    rw [Option.map_some, Option.getD_some, tree.linked.children_eq hnode]
    exact List.pairwise_lt_range.filter _

/-- What stands directly above a node below `top` is at or below `top`. -/
theorem parent_mem_preorderFrom {top id parent : Nat} (hid : id ∈ tree.preorderFrom top)
    (hne : id ≠ top) (hparent : tree.parent? id = some parent) : parent ∈ tree.preorderFrom top := by
  have habove := (mem_preorderFrom.1 hid).resolve_left hne
  rw [ancestors_of_parent hparent] at habove
  exact mem_preorderFrom.2 ((List.mem_cons.1 habove).imp_left Eq.symm)

/-- The walk from a node comes to no smaller number. -/
theorem le_of_mem_preorderFrom {top id : Nat} (h : id ∈ tree.preorderFrom top) : top ≤ id := by
  rcases mem_preorderFrom.1 h with rfl | h
  · exact Nat.le_refl id
  · exact Nat.le_of_lt (lt_of_mem_ancestors h)

/-- The depth-first order lists the children of one node by their numbers. -/
theorem pairwise_siblings_preorderFrom (tree : SyntaxTree) (top : Nat) :
    (tree.preorderFrom top).Pairwise fun left right ↦ ∀ parent,
      tree.parent? left = some parent → tree.parent? right = some parent → left < right := by
  induction hrank : tree.size - top using Nat.strongRecOn generalizing top with
  | ind rank ih =>
    rw [preorderFrom_eq, List.pairwise_cons, List.pairwise_flatMap]
    refine ⟨?_, ?_, ?_⟩
    · intro below hbelow _ _ _
      obtain ⟨child, hchild, hbelow⟩ := List.mem_flatMap.1 hbelow
      exact Nat.lt_of_lt_of_le (lt_of_mem_children hchild).1 (le_of_mem_preorderFrom hbelow)
    · intro child hchild
      obtain ⟨hlt, hsize⟩ := lt_of_mem_children hchild
      exact ih (tree.size - child) (by omega) child rfl
    · refine (tree.pairwise_children top).imp_of_mem ?_
      intro first second hfirst hsecond hlt left hleft right hright parent hparent hparent'
      have hchild {child id : Nat} (hchild : child ∈ tree.children top)
          (hid : id ∈ tree.preorderFrom child) (hparent : tree.parent? id = some parent) :
          id = child ∧ parent = top ∨ parent ∈ tree.preorderFrom child ∧ top < parent := by
        by_cases hat : id = child
        · rw [hat, mem_children.1 hchild] at hparent
          exact .inl ⟨hat, (Option.some.inj hparent).symm⟩
        · have hplace := parent_mem_preorderFrom hid hat hparent
          exact .inr ⟨hplace, Nat.lt_of_lt_of_le (lt_of_mem_children hchild).1
            (le_of_mem_preorderFrom hplace)⟩
      rcases hchild hfirst hleft hparent with ⟨rfl, htop⟩ | ⟨hplace, htop⟩ <;>
        rcases hchild hsecond hright hparent' with ⟨rfl, htop'⟩ | ⟨hplace', htop'⟩
      · exact hlt
      · exact absurd htop (Nat.ne_of_gt htop')
      · exact absurd htop' (Nat.ne_of_gt htop)
      · exact absurd hplace'
          (not_mem_preorderFrom_sibling hfirst hsecond (Nat.ne_of_lt hlt) hplace)

/-! ## Visits -/

/-- A node is entered, then its children are visited, and it is left if the walk tells so. -/
theorem visitsFrom_of_kind {id : Nat} {kind : NodeKind} (h : tree.kind? id = some kind) :
    tree.visitsFrom id =
      .enter kind id :: (tree.children id).flatMap tree.visitsFrom ++
        if kind.encloses then [.leave kind id] else [] := by
  rw [visitsFrom, h]
  simp

theorem visitsFrom_of_no_kind {id : Nat} (h : tree.kind? id = none) : tree.visitsFrom id = [] := by
  rw [visitsFrom, h]

end VbaLint.Tree.SyntaxTree
