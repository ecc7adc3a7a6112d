import Mathlib.Data.List.Basic
import VbaLint.Source.Segment

/-!
# Places of comments

A logical line has at most one comment, and the place of a comment starts on the first physical line of
its logical line. So no two comments of a text have the same place.
-/

namespace VbaLint.Source

open Text

/-- The logical line that a physical line belongs to: the one that continues, if one does. -/
def joined (pending : Option LogicalLine) (number : Nat) (line : List Char) : LogicalLine :=
  pending.elim (.begin number line) (·.prolong number line)

/-- A line that is continued waits for the next one, and another one ends the logical line. -/
theorem joinLines_cons (pending : Option LogicalLine) (number : Nat) (line : List Char)
    (rest : List (List Char)) :
    joinLines pending number (line :: rest) =
      if isContinued (trimEnd line) then joinLines (some (joined pending number line)) (number + 1) rest
      else joined pending number line :: joinLines none (number + 1) rest := by
  cases pending <;> rfl

def firstLine (pending : Option LogicalLine) (number : Nat) : Nat :=
  pending.elim number (·.startLine)

/-- A logical line starts where its first physical line stands. -/
theorem startLine_joined (pending : Option LogicalLine) (number : Nat) (line : List Char) :
    (joined pending number line).startLine = firstLine pending number := by
  cases pending <;> rfl

/-- Logical lines come in the order of their first lines. -/
theorem startLines_joinLines {pending : Option LogicalLine} {number : Nat}
    (h : firstLine pending number ≤ number) (lines : List (List Char)) :
    (joinLines pending number lines).Pairwise (·.startLine < ·.startLine) ∧
      ∀ line ∈ joinLines pending number lines, firstLine pending number ≤ line.startLine := by
  induction lines generalizing pending number with
  | nil => cases pending <;> simp [joinLines, firstLine]
  | cons line rest ih =>
    have hstart := startLine_joined pending number line
    rw [joinLines_cons]
    split
    · have hsame : firstLine (some (joined pending number line)) (number + 1) =
          firstLine pending number := hstart
      have hrest := ih (Nat.le_trans (Nat.le_of_eq hsame) (Nat.le_succ_of_le h))
      rw [hsame] at hrest
      exact hrest
    · obtain ⟨hpairwise, hlater⟩ := @ih none (number + 1) (Nat.le_refl _)
      have hlt : ∀ later ∈ joinLines none (number + 1) rest,
          firstLine pending number < later.startLine :=
        fun later hmem ↦ Nat.lt_of_le_of_lt h (hlater later hmem)
      refine ⟨List.pairwise_cons.2 ⟨fun later hmem ↦ ?_, hpairwise⟩, List.forall_mem_cons.2 ⟨?_, ?_⟩⟩
      · exact Nat.lt_of_le_of_lt (Nat.le_of_eq hstart) (hlt later hmem)
      · exact Nat.le_of_eq hstart.symm
      · exact fun later hmem ↦ Nat.le_of_lt (hlt later hmem)

theorem pairwise_logicalLines (source : List Char) :
    (logicalLines source).Pairwise (·.startLine < ·.startLine) := by
  have hfirst : firstLine none 1 ≤ 1 := Nat.le_refl 1
  exact (startLines_joinLines hfirst (physicalLines source)).1

/-- The comment that stands at a place of a line, unless it is a statement. -/
def LineItem.comment? : LineItem → Option Segment
  | .statement _ => none
  | .comment segment => some segment

theorem LineItem.comment?_eq_some_iff {item : LineItem} {segment : Segment} :
    item.comment? = some segment ↔ item = .comment segment := by
  cases item <;> simp [comment?]

def commentsOf (source : List Char) : List Segment := (lineItems source).filterMap (·.comment?)

theorem LogicalLine.startLine_of_comment? {line : LogicalLine} {segment : Segment}
    (h : line.comment? = some segment) : segment.selection.startLine = line.startLine := by
  unfold comment? at h
  dsimp only at h
  repeat' split at h
  all_goals cases h
  all_goals rfl

theorem LogicalLine.filterMap_comment?_items (line : LogicalLine) :
    line.items.filterMap (·.comment?) = line.comment?.toList := by
  have hnone : (line.statements.map LineItem.statement).filterMap (·.comment?) = [] := by
    simp [LineItem.comment?]
  rw [items, List.filterMap_append, hnone, List.nil_append]
  cases line.comment? <;> rfl

theorem commentsOf_eq (source : List Char) :
    commentsOf source = (logicalLines source).filterMap (·.comment?) := by
  rw [commentsOf, lineItems, List.filterMap_flatMap, List.filterMap_eq_flatMap_toList]
  simp only [LogicalLine.filterMap_comment?_items]

/-- Comments come in the order of the lines that they start on. -/
theorem pairwise_commentsOf (source : List Char) :
    (commentsOf source).Pairwise (·.selection.startLine < ·.selection.startLine) := by
  rw [commentsOf_eq, List.pairwise_filterMap]
  refine (pairwise_logicalLines source).imp ?_
  intro line later hlt segment hsegment further hfurther
  rw [LogicalLine.startLine_of_comment? hsegment, LogicalLine.startLine_of_comment? hfurther]
  exact hlt

/-- No other comment has the place of a comment. -/
theorem selection_ne_of_split {source : List Char} {before after : List LineItem}
    {segment : Segment} (h : lineItems source = before ++ .comment segment :: after) :
    (∀ other, .comment other ∈ before → other.selection ≠ segment.selection) ∧
      ∀ other, .comment other ∈ after → other.selection ≠ segment.selection := by
  have hpairwise := pairwise_commentsOf source
  rw [commentsOf, h, List.filterMap_append] at hpairwise
  obtain ⟨-, hbehind, hbefore⟩ := List.pairwise_append.1 hpairwise
  rw [List.filterMap_cons_some (show (LineItem.comment segment).comment? = some segment from rfl)]
    at hbehind hbefore
  obtain ⟨hafter, -⟩ := List.pairwise_cons.1 hbehind
  have hmem {other : Segment} {items : List LineItem} (hother : .comment other ∈ items) :
      other ∈ items.filterMap (·.comment?) := List.mem_filterMap.2 ⟨_, hother, rfl⟩
  refine ⟨fun other hother heq ↦ ?_, fun other hother heq ↦ ?_⟩
  · have hlt := hbefore other (hmem hother) segment List.mem_cons_self
    rw [heq] at hlt
    exact Nat.lt_irrefl _ hlt
  · have hlt := hafter other (hmem hother)
    rw [heq] at hlt
    exact Nat.lt_irrefl _ hlt

end VbaLint.Source
