import Mathlib.Logic.Relation
import VbaLint.Proofs.Tree.Preorder

/-!
# Enclosing nodes

A node is enclosed by itself and by whatever encloses its parent. The nodes that enclose one node lie
one inside the other, so that there is an innermost among those with a given property, and a search
that goes upwards finds it.
-/

namespace VbaLint.Tree.SyntaxTree

variable {tree : SyntaxTree} {above id found parent : Nat}

/-- Going up from `id` parent by parent one comes to `above`. -/
def Encloses (tree : SyntaxTree) (above id : Nat) : Prop :=
  Relation.ReflTransGen (fun child parent ↦ tree.parent? child = some parent) id above

/-- Of the nodes that enclose `id`, `nearest` is the innermost that satisfies `p`. -/
structure IsNearest (tree : SyntaxTree) (p : Nat → Prop) (id nearest : Nat) : Prop where
  encloses : tree.Encloses nearest id
  holds : p nearest
  innermost {above : Nat} (habove : tree.Encloses above id) (hp : p above) :
    tree.Encloses above nearest

namespace Encloses

@[refl]
theorem refl (tree : SyntaxTree) (id : Nat) : tree.Encloses id id := Relation.ReflTransGen.refl

theorem le (h : tree.Encloses above id) : above ≤ id := by
  induction h with
  | refl => exact Nat.le_refl id
  | tail _ hparent ih => exact Nat.le_trans (Nat.le_of_lt (parent_lt hparent)) ih

theorem antisymm (h : tree.Encloses above id) (h' : tree.Encloses id above) : above = id :=
  Nat.le_antisymm h.le h'.le

/-- Nothing else encloses a node without a parent. -/
theorem eq_of_no_parent (hparent : tree.parent? id = none) (h : tree.Encloses above id) :
    above = id := by
  rcases h.cases_head with rfl | ⟨parent, hparent', -⟩
  · rfl
  · rw [hparent] at hparent'
    cases hparent'

theorem of_parent (hparent : tree.parent? id = some parent) (h : tree.Encloses above parent) :
    tree.Encloses above id :=
  .head hparent h

theorem eq_or_of_parent (hparent : tree.parent? id = some parent) (h : tree.Encloses above id) :
    above = id ∨ tree.Encloses above parent := by
  rcases h.cases_head with rfl | ⟨parent', hparent', h⟩
  · exact .inl rfl
  · rw [hparent] at hparent'
    cases hparent'
    exact .inr h

end Encloses

/-- The walk upwards comes to the enclosing nodes and to no others. -/
theorem mem_ancestors_iff_encloses : above ∈ id :: tree.ancestors id ↔ tree.Encloses above id := by
  induction id using Nat.strongRecOn with
  | ind id ih =>
    cases hparent : tree.parent? id with
    | none =>
      rw [ancestors_of_no_parent hparent, List.mem_singleton]
      constructor
      · rintro rfl
        rfl
      · exact Encloses.eq_of_no_parent hparent
    | some parent =>
      rw [ancestors_of_parent hparent, List.mem_cons, ih parent (parent_lt hparent)]
      constructor
      · rintro (rfl | h)
        · rfl
        · exact h.of_parent hparent
      · exact Encloses.eq_or_of_parent hparent

/-- A node with the property is itself the nearest one. -/
theorem isNearest_iff_eq {p : Nat → Prop} (hp : p id) : tree.IsNearest p id found ↔ found = id := by
  constructor
  · intro h
    exact h.encloses.antisymm (h.innermost (.refl tree id) hp)
  · rintro rfl
    exact ⟨.refl tree found, hp, fun habove _ ↦ habove⟩

/-- For a node without the property the nearest one is the nearest to its parent. -/
theorem isNearest_iff_of_parent {p : Nat → Prop} (hp : ¬p id) (hparent : tree.parent? id = some parent) :
    tree.IsNearest p id found ↔ tree.IsNearest p parent found := by
  have hup {above : Nat} (hat : p above) : tree.Encloses above id ↔ tree.Encloses above parent := by
    refine ⟨fun h ↦ (h.eq_or_of_parent hparent).resolve_left ?_, fun h ↦ h.of_parent hparent⟩
    rintro rfl
    exact hp hat
  constructor
  · intro h
    exact ⟨(hup h.holds).1 h.encloses, h.holds, fun habove hat ↦ h.innermost ((hup hat).2 habove) hat⟩
  · intro h
    exact ⟨(hup h.holds).2 h.encloses, h.holds, fun habove hat ↦ h.innermost ((hup hat).1 habove) hat⟩

/-- A search along the way up stops at the nearest node with the property. -/
theorem find?_eq_some_iff_isNearest {p : Nat → Bool} :
    (id :: tree.ancestors id).find? p = some found ↔ tree.IsNearest (fun id ↦ p id = true) id found := by
  induction id using Nat.strongRecOn with
  | ind id ih =>
    by_cases hp : p id = true
    · rw [List.find?_cons_of_pos hp, isNearest_iff_eq hp, Option.some.injEq, eq_comm]
    rw [List.find?_cons_of_neg hp]
    cases hparent : tree.parent? id with
    | none =>
      rw [ancestors_of_no_parent hparent]
      constructor
      · intro h
        cases h
      · intro h
        exact absurd (h.encloses.eq_of_no_parent hparent ▸ h.holds) hp
    | some parent =>
      rw [ancestors_of_parent hparent, ih parent (parent_lt hparent),
        isNearest_iff_of_parent hp hparent]

end VbaLint.Tree.SyntaxTree
