import Mathlib.Data.List.Forall2
import Mathlib.Data.List.Nodup

/-!
# Lists

Facts about filtering and joining lists, about lists without repetitions, about the order of members, and
about lists whose members correspond.
-/

namespace VbaLint

variable {α β : Type}

theorem nodup_eraseDups [BEq α] [LawfulBEq α] (values : List α) : values.eraseDups.Nodup := by
  induction hlength : values.length using Nat.strongRecOn generalizing values with
  | ind length ih =>
    cases values with
    | nil => exact List.nodup_nil
    | cons value rest =>
      rw [List.eraseDups_cons]
      have hshorter : (rest.filter fun other ↦ !other == value).length < length := by
        rw [← hlength]
        exact Nat.lt_succ_of_le (List.length_filter_le _ rest)
      refine List.nodup_cons.2 ⟨?_, ih _ hshorter _ rfl⟩
      simp

/-- Testing results is testing what they come from, if both tests agree. -/
theorem filter_filterMap_of_agree {f : α → Option β} {p : α → Bool} {q : β → Bool}
    (h : ∀ value result, f value = some result → q result = p value) (values : List α) :
    (values.filterMap f).filter q = (values.filter p).filterMap f := by
  rw [List.filter_filterMap, List.filterMap_filter]
  congr 1
  funext value
  cases hresult : f value with
  | none => simp
  | some result => rw [Option.filter_some, h value result hresult]

/-- Joining what some values come to is joining over all values, where the others contribute nothing. -/
theorem flatMap_filter (p : α → Bool) (f : α → List β) (values : List α) :
    (values.filter p).flatMap f = values.flatMap fun value ↦ if p value then f value else [] := by
  induction values with
  | nil => rfl
  | cons value rest ih =>
    rw [List.filter_cons, List.flatMap_cons, ← ih]
    split <;> rfl

/-- In a list without repetitions a test for one member finds it once. -/
theorem filter_beq_of_nodup [DecidableEq α] {values : List α} {value : α} (hnodup : values.Nodup)
    (hmem : value ∈ values) : values.filter (· == value) = [value] := by
  rw [List.filter_beq, List.count_eq_one_of_mem hnodup hmem, List.replicate_one]

/-- A join in which one member alone contributes. -/
theorem flatMap_of_single {f : α → List β} {values : List α} {value : α} (hnodup : values.Nodup)
    (hmem : value ∈ values) (hothers : ∀ other ∈ values, other ≠ value → f other = []) :
    values.flatMap f = f value := by
  induction values with
  | nil => cases hmem
  | cons first rest ih =>
    obtain ⟨hfirst, hrest⟩ := List.nodup_cons.1 hnodup
    rw [List.flatMap_cons]
    by_cases heq : first = value
    · subst heq
      have hnil : rest.flatMap f = [] := by
        apply List.flatMap_eq_nil_iff.2
        intro other hother
        apply hothers other (List.mem_cons_of_mem first hother)
        rintro rfl
        exact hfirst hother
      rw [hnil, List.append_nil]
    · have hmem' : value ∈ rest := (List.mem_cons.1 hmem).resolve_left (Ne.symm heq)
      rw [hothers first List.mem_cons_self heq, List.nil_append]
      exact ih hrest hmem' fun other hother ↦ hothers other (List.mem_cons_of_mem first hother)

/-- Each member of the left list corresponds to one of the right. -/
theorem exists_of_mem_left {r : α → β → Prop} {left : List α} {right : List β}
    (h : List.Forall₂ r left right) {value : α} (hmem : value ∈ left) :
    ∃ other ∈ right, r value other := by
  induction h with
  | nil => cases hmem
  | cons hfirst _ ih =>
    rcases List.mem_cons.1 hmem with rfl | hmem
    · exact ⟨_, List.mem_cons_self, hfirst⟩
    · obtain ⟨other, hother, hcorresponds⟩ := ih hmem
      exact ⟨other, List.mem_cons_of_mem _ hother, hcorresponds⟩

theorem exists_of_mem_right {r : α → β → Prop} {left : List α} {right : List β}
    (h : List.Forall₂ r left right) {value : β} (hmem : value ∈ right) :
    ∃ other ∈ left, r other value :=
  exists_of_mem_left (r := fun value other ↦ r other value) h.flip hmem

theorem sublist_flatMap_of_mem (f : α → List β) {values : List α} {value : α} (hmem : value ∈ values) :
    (f value).Sublist (values.flatMap f) := by
  obtain ⟨front, rest, rfl⟩ := List.append_of_mem hmem
  rw [List.flatMap_append, List.flatMap_cons]
  exact (List.sublist_append_left _ _).trans (List.sublist_append_right _ _)

/-- Of two members of a list one stands before the other if the other order is excluded. -/
theorem pair_sublist_of_pairwise {r : α → α → Prop} {values : List α} {left right : α}
    (h : values.Pairwise r) (hleft : left ∈ values) (hright : right ∈ values) (hne : left ≠ right)
    (hexcluded : ¬r right left) : [left, right].Sublist values := by
  induction h with
  | nil => cases hleft
  | @cons value values hvalue _ ih =>
    rcases List.mem_cons.1 hleft with rfl | hleft'
    · have hbehind := (List.mem_cons.1 hright).resolve_left hne.symm
      exact (List.singleton_sublist.2 hbehind).cons_cons left
    · rcases List.mem_cons.1 hright with rfl | hright'
      · exact absurd (hvalue left hleft') hexcluded
      · exact (ih hleft' hright').cons value

/-- A member that is not the last has something behind it. -/
theorem mem_dropLast_iff {value : α} {values : List α} :
    value ∈ values.dropLast ↔ ∃ front rest, rest ≠ [] ∧ values = front ++ value :: rest := by
  constructor
  · intro h
    have hne : values ≠ [] := by
      rintro rfl
      cases h
    obtain ⟨front, rest, hsplit⟩ := List.append_of_mem h
    refine ⟨front, rest ++ [values.getLast hne], by simp, ?_⟩
    rw [← List.cons_append, ← List.append_assoc, ← hsplit, List.dropLast_append_getLast]
  · rintro ⟨front, rest, hrest, rfl⟩
    rw [List.dropLast_append_of_ne_nil (by simp), List.dropLast_cons_of_ne_nil hrest]
    simp

end VbaLint
