import Mathlib.Data.Set.Image
import Mathlib.Order.Bounds.Basic
import VbaLint.Proofs.Source.Places

/-!
# Ranges that take in others

Widening a range gives the smallest range that holds both. So a range that is widened again and again is the
hull of what it has taken in: it begins with the first of the ranges and ends with the last.
-/

namespace VbaLint.Source.Selection

variable {inner outer left right selection : Selection}

theorem ext_places (hfirst : left.first = right.first) (hlast : left.last = right.last) :
    left = right := by
  cases left
  cases right
  cases hfirst
  cases hlast
  rfl

theorem positionLE_iff (p q : Place) :
    positionLE (p.line, p.column) (q.line, q.column) = true ↔ p ≤ q := by
  rw [Place.le_iff]
  simp [positionLE]

theorem first_union (left right : Selection) : (left.union right).first = min left.first right.first := by
  have hiff : positionLE (left.startLine, left.startColumn) (right.startLine, right.startColumn) = true ↔
      left.first ≤ right.first := positionLE_iff left.first right.first
  rw [min_def, first, union]
  simp only [hiff]
  split <;> rfl

theorem last_union (left right : Selection) : (left.union right).last = max left.last right.last := by
  have hiff : positionLE (left.endLine, left.endColumn) (right.endLine, right.endColumn) = true ↔
      left.last ≤ right.last := positionLE_iff left.last right.last
  rw [max_def, last, union]
  simp only [hiff]
  split <;> rfl

/-- The range lies in the other. -/
def Within (inner outer : Selection) : Prop := outer.first ≤ inner.first ∧ inner.last ≤ outer.last

/-- The range has been given a place: lines are counted from one. -/
def IsPlaced (selection : Selection) : Prop := selection.startLine ≠ 0

theorem Within.refl (selection : Selection) : selection.Within selection := ⟨le_rfl, le_rfl⟩

theorem IsPlaced.ne_unset (h : selection.IsPlaced) : selection ≠ unset := by
  rintro rfl
  exact h rfl

/-- Widening a range with a place is taking the union. -/
theorem widen_of_isPlaced (h : selection.IsPlaced) (added : Selection) :
    selection.widen added = selection.union added :=
  if_neg h.ne_unset

/-- A range that is widened has a place. -/
theorem IsPlaced.widen (hadded : right.IsPlaced) (h : left = unset ∨ left.IsPlaced) :
    (left.widen right).IsPlaced := by
  rcases h with rfl | hplaced
  · exact hadded
  · rw [widen_of_isPlaced hplaced]
    have hfirst : (left.union right).startLine = (min left.first right.first).line :=
      congrArg Place.line (first_union left right)
    rw [IsPlaced, hfirst]
    rcases le_total left.first right.first with hle | hle
    · rw [min_eq_left hle]
      exact hplaced
    · rw [min_eq_right hle]
      exact hadded

/-- A range that is widened holds what was added. -/
theorem within_widen_right (left right : Selection) : right.Within (left.widen right) := by
  rw [widen]
  split
  · exact .refl right
  · rw [Within, first_union, last_union]
    exact ⟨min_le_right _ _, le_max_right _ _⟩

/-- A range that is widened holds what it held before. -/
theorem Within.widen (h : inner.Within left) (hplaced : left.IsPlaced) (right : Selection) :
    inner.Within (left.widen right) := by
  rw [widen_of_isPlaced hplaced, Within, first_union, last_union]
  exact ⟨(min_le_left _ _).trans h.1, h.2.trans (le_max_left _ _)⟩

/-- Widening by a range that holds the present one takes its place. -/
theorem Within.widen_eq (h : inner.Within outer) (hplaced : inner.IsPlaced) : inner.widen outer = outer := by
  rw [widen_of_isPlaced hplaced]
  refine ext_places ?_ ?_
  · rw [first_union, min_eq_right h.1]
  · rw [last_union, max_eq_right h.2]

/-- The range begins with the first of the ranges of some nodes and ends with the last; it is unset if there
are none. -/
def IsHull (hull : Selection) (nodes : Set Nat) (range : Nat → Selection) : Prop :=
  nodes = ∅ ∧ hull = unset ∨
    IsLeast ((fun id ↦ (range id).first) '' nodes) hull.first ∧
      IsGreatest ((fun id ↦ (range id).last) '' nodes) hull.last

variable {hull : Selection} {nodes : Set Nat} {range range' : Nat → Selection} {id : Nat}

/-- Only the ranges of the nodes count for the hull. -/
theorem IsHull.congr (h : hull.IsHull nodes range) (hrange : ∀ id ∈ nodes, range' id = range id) :
    hull.IsHull nodes range' := by
  have hfirst : (fun id ↦ (range' id).first) '' nodes = (fun id ↦ (range id).first) '' nodes :=
    Set.image_congr fun id hid ↦ congrArg first (hrange id hid)
  have hlast : (fun id ↦ (range' id).last) '' nodes = (fun id ↦ (range id).last) '' nodes :=
    Set.image_congr fun id hid ↦ congrArg last (hrange id hid)
  rwa [IsHull, hfirst, hlast]

theorem IsHull.isPlaced (h : hull.IsHull nodes range) (hplaced : ∀ id ∈ nodes, (range id).IsPlaced) :
    hull = unset ∨ hull.IsPlaced := by
  rcases h with ⟨-, hunset⟩ | ⟨⟨⟨id, hid, hfirst⟩, -⟩, -⟩
  · exact .inl hunset
  · have hline : (range id).startLine = hull.startLine := congrArg Place.line hfirst
    exact .inr fun hzero ↦ hplaced id hid (hline.trans hzero)

/-- The least value is found again when one node gets a smaller value or a first one. -/
theorem isLeast_insert_image {α : Type} [LinearOrder α] {value value' : Nat → α} {least : α}
    (h : IsLeast (value '' nodes) least) (hothers : ∀ other ∈ nodes, other ≠ id → value' other = value other)
    (hid : id ∈ nodes → value' id ≤ value id) :
    IsLeast (Set.image value' (insert id nodes)) (min least (value' id)) := by
  constructor
  · rcases le_total least (value' id) with hle | hle
    · rw [min_eq_left hle]
      obtain ⟨node, hnode, rfl⟩ := h.1
      by_cases heq : node = id
      · subst heq
        exact ⟨node, Set.mem_insert _ _, le_antisymm (hid hnode) hle⟩
      · exact ⟨node, Set.mem_insert_of_mem _ hnode, hothers node hnode heq⟩
    · rw [min_eq_right hle]
      exact ⟨id, Set.mem_insert _ _, rfl⟩
  · rintro _ ⟨node, hnode, rfl⟩
    by_cases heq : node = id
    · subst heq
      exact min_le_right _ _
    · have hold : node ∈ nodes := hnode.resolve_left heq
      rw [hothers node hold heq]
      exact (min_le_left _ _).trans (h.2 ⟨node, hold, rfl⟩)

/-- A hull is widened by the range of a further node, or of one whose range has grown. -/
theorem IsHull.widen (h : hull.IsHull nodes range) (hplaced : ∀ id ∈ nodes, (range id).IsPlaced)
    (range' : Nat → Selection) (id : Nat)
    (hothers : ∀ other ∈ nodes, other ≠ id → range' other = range other)
    (hgrown : id ∈ nodes → (range id).Within (range' id)) :
    (hull.widen (range' id)).IsHull (insert id nodes) range' := by
  have hhull := h.isPlaced hplaced
  rcases h with ⟨rfl, rfl⟩ | ⟨hfirst, hlast⟩
  · refine .inr ?_
    rw [insert_empty_eq, Set.image_singleton, Set.image_singleton]
    exact ⟨isLeast_singleton, isGreatest_singleton⟩
  · have hset : hull.IsPlaced := by
      rcases hhull with rfl | hset
      · obtain ⟨node, hnode, hfirst⟩ := hfirst.1
        exact absurd (congrArg Place.line hfirst) (hplaced node hnode)
      · exact hset
    refine .inr ⟨?_, ?_⟩
    · rw [widen_of_isPlaced hset, first_union]
      exact isLeast_insert_image hfirst (fun other hother hne ↦ congrArg first (hothers other hother hne))
        fun hid ↦ (hgrown hid).1
    · -- The greatest value is the least one in the opposite order.
      rw [widen_of_isPlaced hset, last_union]
      exact isLeast_insert_image (α := Placeᵒᵈ) hlast
        (fun other hother hne ↦ congrArg last (hothers other hother hne)) fun hid ↦ (hgrown hid).2

end VbaLint.Source.Selection
