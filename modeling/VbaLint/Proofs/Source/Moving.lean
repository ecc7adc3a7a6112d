import VbaLint.Proofs.Source.Hulls
import VbaLint.Proofs.Source.Ranges

/-!
# Lines put into a text

When whole lines are put into a text, what stands behind them moves down and nothing else changes. The lines
may stand at any place that does not lie within a logical line.
-/

namespace VbaLint.Source

open Text

/-- Lines that are put into a text: `count` of them behind the line `behind`. -/
structure Insertion where
  behind : Nat
  count : Nat
  deriving DecidableEq, Repr

namespace Insertion

variable (insertion : Insertion) {left right line : Nat}

def move (insertion : Insertion) (line : Nat) : Nat :=
  if line ≤ insertion.behind then line else line + insertion.count

theorem move_of_le (h : line ≤ insertion.behind) : insertion.move line = line := if_pos h

theorem move_of_lt (h : insertion.behind < line) : insertion.move line = line + insertion.count :=
  if_neg (Nat.not_le.2 h)

theorem move_lt_move_iff : insertion.move left < insertion.move right ↔ left < right := by
  unfold move
  split <;> split <;> omega

theorem move_inj : insertion.move left = insertion.move right ↔ left = right := by
  have hlt : insertion.move left < insertion.move right ↔ left < right := insertion.move_lt_move_iff
  have hgt : insertion.move right < insertion.move left ↔ right < left := insertion.move_lt_move_iff
  omega

/-- Lines that are put in before others and the others: in either order each line gets the same number. -/
theorem move_move (behind count line : Nat) :
    (Insertion.mk 0 behind).move ((Insertion.mk 0 count).move line) =
      (Insertion.mk behind count).move ((Insertion.mk 0 behind).move line) := by
  simp only [move]
  repeat' split
  all_goals omega

end Insertion

/-! ## Ranges -/

namespace Selection

variable (insertion : Insertion) {selection left right : Selection}

def moved (selection : Selection) (insertion : Insertion) : Selection :=
  { selection with
    startLine := insertion.move selection.startLine
    endLine := insertion.move selection.endLine }

/-- Both lines of the range are lines of a text. -/
def IsCounted (selection : Selection) : Prop := 0 < selection.startLine ∧ 0 < selection.endLine

/-- The range `count` lines further down. -/
def down (selection : Selection) (count : Nat) : Selection :=
  { selection with
    startLine := selection.startLine + count
    endLine := selection.endLine + count }

theorem IsCounted.isPlaced (h : selection.IsCounted) : selection.IsPlaced := Nat.pos_iff_ne_zero.1 h.1

/-- In front of all lines the lines put in move everything down. -/
theorem IsCounted.moved_eq_down (h : selection.IsCounted) (count : Nat) :
    selection.moved ⟨0, count⟩ = selection.down count := by
  rw [moved, Insertion.move_of_lt _ h.1, Insertion.move_of_lt _ h.2, down]

@[simp]
theorem moved_unset : unset.moved insertion = unset := by
  rw [moved, unset, insertion.move_of_le (Nat.zero_le _)]

theorem moved_eq_unset_iff : selection.moved insertion = unset ↔ selection = unset := by
  refine ⟨fun h ↦ ?_, fun h ↦ h ▸ moved_unset insertion⟩
  have hzero : insertion.move 0 = 0 := insertion.move_of_le (Nat.zero_le _)
  obtain ⟨startLine, startColumn, endLine, endColumn⟩ := selection
  simp only [moved, unset, mk.injEq] at h ⊢
  rw [← hzero, insertion.move_inj, insertion.move_inj] at h
  rwa [hzero] at h

theorem positionLE_move (line column line' column' : Nat) :
    positionLE (insertion.move line, column) (insertion.move line', column') =
      positionLE (line, column) (line', column') := by
  have heq : (insertion.move line == insertion.move line') = (line == line') := by
    rw [Bool.eq_iff_iff, beq_iff_eq, beq_iff_eq, insertion.move_inj]
  simp only [positionLE, heq, insertion.move_lt_move_iff]

theorem moved_union (left right : Selection) :
    (left.union right).moved insertion = (left.moved insertion).union (right.moved insertion) := by
  simp only [union, moved, positionLE_move]
  congr 1 <;> split <;> rfl

theorem moved_widen (current added : Selection) :
    (current.widen added).moved insertion = (current.moved insertion).widen (added.moved insertion) := by
  simp only [widen, moved_eq_unset_iff]
  split
  · rfl
  · exact moved_union insertion current added

theorem isCounted_onLine {line : Nat} (h : 0 < line) (column length : Nat) :
    (onLine line column length).IsCounted := ⟨h, h⟩

theorem IsCounted.union (hleft : left.IsCounted) (hright : right.IsCounted) :
    (left.union right).IsCounted := by
  simp only [Selection.union, IsCounted]
  constructor
  · split
    · exact hleft.1
    · exact hright.1
  · split
    · exact hright.2
    · exact hleft.2

/-- Widening by a range on lines of the text gives such a range. -/
theorem IsCounted.widen (hadded : right.IsCounted) (h : left = unset ∨ left.IsCounted) :
    (left.widen right).IsCounted := by
  rcases h with rfl | h
  · exact hadded
  · rw [widen_of_isPlaced h.isPlaced]
    exact h.union hadded

/-- A range moves with the lines that it covers. One that is unset stays unset. -/
structure MovesTo (insertion : Insertion) (left right : Selection) : Prop where
  counted : left = unset ∨ left.IsCounted
  eq_moved : right = left.moved insertion

variable {insertion}

/-- A range on lines of the text moves with the text. -/
theorem IsCounted.movesTo (h : selection.IsCounted) :
    selection.MovesTo insertion (selection.moved insertion) := ⟨.inr h, rfl⟩

/-- A range without a place does not move. -/
theorem movesTo_unset : unset.MovesTo insertion unset := ⟨.inl rfl, (moved_unset insertion).symm⟩

/-- Widening and moving commute. -/
theorem MovesTo.widen {added : Selection} (h : left.MovesTo insertion right) (hadded : added.IsCounted) :
    (left.widen added).MovesTo insertion (right.widen (added.moved insertion)) := by
  refine ⟨.inr (hadded.widen h.counted), ?_⟩
  rw [h.eq_moved, moved_widen]

/-- Lines that are put in before all others move what has a range down by their number. -/
theorem MovesTo.eq_down {count : Nat} (h : left.MovesTo ⟨0, count⟩ right) :
    right = if left = unset then unset else left.down count := by
  rcases h.counted with rfl | hcounted
  · exact h.eq_moved.trans (moved_unset _)
  · rw [h.eq_moved, if_neg hcounted.isPlaced.ne_unset, hcounted.moved_eq_down]

end Selection

/-! ## Statements and comments -/

section

variable (insertion : Insertion)

def Segment.moved (segment : Segment) (insertion : Insertion) : Segment :=
  { segment with selection := segment.selection.moved insertion }

def LogicalLine.moved (line : LogicalLine) (insertion : Insertion) : LogicalLine :=
  { line with
    startLine := insertion.move line.startLine
    endLine := insertion.move line.endLine }

namespace LineItem

def segment : LineItem → Segment
  | .statement segment | .comment segment => segment

def moved (insertion : Insertion) : LineItem → LineItem
  | .statement segment => .statement (segment.moved insertion)
  | .comment segment => .comment (segment.moved insertion)

theorem moved_eq_self {item : LineItem}
    (h : item.segment.selection.moved insertion = item.segment.selection) :
    item.moved insertion = item := by
  cases item with
  | statement segment => exact congrArg (fun selection ↦ statement ⟨segment.text, selection⟩) h
  | comment segment => exact congrArg (fun selection ↦ comment ⟨segment.text, selection⟩) h

end LineItem

namespace LogicalLine

variable (line : LogicalLine)

theorem place_moved (span : Span) :
    (line.moved insertion).place span = (line.place span).moved insertion := by
  have hsingle : (line.moved insertion).isSingle = line.isSingle := by
    rw [isSingle, isSingle, Bool.eq_iff_iff, beq_iff_eq, beq_iff_eq]
    exact insertion.move_inj
  rw [place, place, hsingle]
  split <;> rfl

theorem statements_moved :
    (line.moved insertion).statements = line.statements.map (·.moved insertion) := by
  have hspans : (line.moved insertion).codeSpans = line.codeSpans := rfl
  rw [statements, hspans, statements, List.map_map]
  refine List.map_congr_left fun span _ ↦ ?_
  exact congrArg (Segment.mk span.text) (line.place_moved insertion span)

theorem comment?_moved :
    (line.moved insertion).comment? = line.comment?.map (·.moved insertion) := by
  have hspans : (line.moved insertion).codeSpans = line.codeSpans := rfl
  have htext : (line.moved insertion).text = line.text := rfl
  rw [comment?, hspans, htext, comment?]
  cases line.codeSpans.dropWhile fun span ↦ !isRemark span.text with
  | cons span rest => rfl
  | nil =>
    obtain ⟨code, comment⟩ := splitComment false line.text
    cases comment <;> rfl

theorem items_moved : (line.moved insertion).items = line.items.map (·.moved insertion) := by
  rw [items, statements_moved, comment?_moved, items, List.map_append, List.map_map, List.map_map]
  congr 1
  cases line.comment? <;> rfl

/-- The statements and the comment of a line cover its physical lines. -/
theorem lines_of_mem_items {line : LogicalLine} {item : LineItem} (h : item ∈ line.items) :
    item.segment.selection.startLine = line.startLine ∧ item.segment.selection.endLine = line.endLine := by
  rcases List.mem_append.1 h with h | h
  · obtain ⟨statement, hstatement, rfl⟩ := List.mem_map.1 h
    exact lines_of_mem_statements hstatement
  · obtain ⟨comment, hcomment, rfl⟩ := Option.map_eq_some_iff.1 (Option.mem_toList.1 h)
    unfold comment? at hcomment
    dsimp only at hcomment
    repeat' split at hcomment
    all_goals cases hcomment
    all_goals exact ⟨rfl, rfl⟩

end LogicalLine

end

/-! ## Logical lines -/

theorem joined_moved {insertion : Insertion} {number : Nat} (hnumber : insertion.behind < number)
    (pending : Option LogicalLine) (line : List Char) :
    joined (pending.map (·.moved insertion)) (number + insertion.count) line =
      (joined pending number line).moved insertion := by
  rw [← insertion.move_of_lt hnumber]
  cases pending <;> rfl

/-- Behind the place where lines are put in all logical lines move. -/
theorem joinLines_moved {insertion : Insertion} {number : Nat} (hnumber : insertion.behind < number)
    (pending : Option LogicalLine) (lines : List (List Char)) :
    joinLines (pending.map (·.moved insertion)) (number + insertion.count) lines =
      (joinLines pending number lines).map (·.moved insertion) := by
  induction lines generalizing pending number with
  | nil => cases pending <;> rfl
  | cons line rest ih =>
    have hrest := ih (Nat.lt_succ_of_lt hnumber)
    rw [Nat.succ_add] at hrest
    rw [joinLines_cons, joinLines_cons, joined_moved hnumber]
    split
    · exact hrest (some (joined pending number line))
    · exact congrArg (_ :: ·) (hrest none)

/-- Lines are joined part by part where the first part does not continue. -/
theorem joinLines_append {pending : Option LogicalLine} {front : List (List Char)}
    (hpending : front = [] → pending = none)
    (hlast : ∀ line ∈ front.getLast?, isContinued (trimEnd line) = false) (number : Nat)
    (rest : List (List Char)) :
    joinLines pending number (front ++ rest) =
      joinLines pending number front ++ joinLines none (number + front.length) rest := by
  induction front generalizing pending number with
  | nil =>
    rw [hpending rfl]
    rfl
  | cons line front ih =>
    have hfront : ∀ later ∈ front.getLast?, isContinued (trimEnd later) = false := by
      intro later hlater
      refine hlast later ?_
      rw [List.getLast?_cons, hlater]
      rfl
    rw [List.cons_append, joinLines_cons, joinLines_cons, List.length_cons, Nat.add_comm front.length,
      ← Nat.add_assoc]
    split
    · next hcontinued =>
      refine ih (fun hnil ↦ ?_) hfront (number + 1)
      subst hnil
      rw [hlast line rfl] at hcontinued
      cases hcontinued
    · rw [ih (fun _ ↦ rfl) hfront (number + 1), List.cons_append]

theorem endLine_lt_of_mem_joinLines {pending : Option LogicalLine} {number : Nat}
    (hpending : ∀ started ∈ pending, started.endLine < number) (lines : List (List Char)) :
    ∀ line ∈ joinLines pending number lines, line.endLine < number + lines.length := by
  induction lines generalizing pending number with
  | nil =>
    intro line hline
    exact hpending line (Option.mem_toList.1 hline)
  | cons line rest ih =>
    rw [joinLines_cons, List.length_cons, Nat.add_comm rest.length, ← Nat.add_assoc]
    have hjoined : (joined pending number line).endLine < number + 1 := by
      rw [endLine_joined]
      exact Nat.lt_succ_self number
    split
    · refine ih fun started hstarted ↦ ?_
      cases hstarted
      exact hjoined
    · refine List.forall_mem_cons.2 ⟨?_, ih nofun⟩
      omega

/-- The lines of a logical line are lines of the text, in this order. -/
theorem lines_of_mem_logicalLines {source : List Char} {line : LogicalLine}
    (h : line ∈ logicalLines source) :
    0 < line.startLine ∧ line.startLine ≤ line.endLine ∧ line.endLine ≤ (physicalLines source).length := by
  have hfirst : firstLine none 1 ≤ 1 := Nat.le_refl 1
  have hnone : ∀ started ∈ (none : Option LogicalLine), started.endLine < 1 := nofun
  have hend := endLine_lt_of_mem_joinLines hnone (physicalLines source) line h
  exact ⟨(startLines_joinLines hfirst (physicalLines source)).2 line h,
    (isRead_of_mem_logicalLines h).line_le, by omega⟩

/-- The lines of a statement or comment are lines of the text, in this order. -/
theorem lines_of_mem_lineItems {source : List Char} {item : LineItem} (h : item ∈ lineItems source) :
    0 < item.segment.selection.startLine ∧
      item.segment.selection.startLine ≤ item.segment.selection.endLine ∧
      item.segment.selection.endLine ≤ (physicalLines source).length := by
  obtain ⟨line, hline, hitem⟩ := List.mem_flatMap.1 h
  obtain ⟨hstart, hend⟩ := LogicalLine.lines_of_mem_items hitem
  rw [hstart, hend]
  exact lines_of_mem_logicalLines hline

/-- Every statement and comment stands on lines of the text. -/
theorem isCounted_of_mem_lineItems {source : List Char} {item : LineItem} (h : item ∈ lineItems source) :
    item.segment.selection.IsCounted := by
  obtain ⟨hfirst, hle, -⟩ := lines_of_mem_lineItems h
  exact ⟨hfirst, Nat.lt_of_lt_of_le hfirst hle⟩

/-! ## Texts -/

/-- The text consists of whole lines of which the last does not continue. -/
structure EndsLine (text : List Char) : Prop where
  feed : ∀ c ∈ text.getLast?, c = '\n'
  last : ∀ line ∈ (physicalLines text).getLast?, isContinued (trimEnd line) = false

/-- A text that ends with a line feed and no continuation ends its logical line. -/
theorem EndsLine.of_getLast? {text : List Char} (hfeed : text.getLast? = some '\n')
    (hlast : (physicalLines text).getLast?.any (fun line ↦ isContinued (trimEnd line)) = false) :
    EndsLine text where
  feed c hc := by
    rw [hfeed] at hc
    exact (Option.some.inj hc).symm
  last line hline := by
    rwa [Option.mem_def.1 hline, Option.any_some] at hlast

theorem linesFrom_append_feed (reversed front rest : List Char) :
    linesFrom reversed (front ++ '\n' :: rest) =
      linesFrom reversed (front ++ ['\n']) ++ linesFrom [] rest := by
  induction front generalizing reversed with
  | nil => rfl
  | cons c front ih =>
    simp only [List.cons_append, linesFrom]
    split
    · rw [ih []]
      rfl
    · exact ih (c :: reversed)

theorem EndsLine.physicalLines_append {front : List Char} (h : EndsLine front) (rest : List Char) :
    physicalLines (front ++ rest) = physicalLines front ++ physicalLines rest := by
  rcases List.eq_nil_or_concat front with rfl | ⟨front, c, rfl⟩
  · rfl
  · rw [List.concat_eq_append] at h ⊢
    obtain rfl : c = '\n' := h.feed c (List.getLast?_concat ..)
    rw [List.append_assoc]
    exact linesFrom_append_feed [] front rest

/-- Behind whole lines the statements and comments of a text stand further down. -/
theorem EndsLine.lineItems_append {front : List Char} (h : EndsLine front) (rest : List Char) :
    lineItems (front ++ rest) =
      lineItems front ++ (lineItems rest).map (·.moved ⟨0, (physicalLines front).length⟩) := by
  let insertion : Insertion := ⟨0, (physicalLines front).length⟩
  have hfirst : insertion.behind < 1 := Nat.one_pos
  have hrest := joinLines_moved hfirst none (physicalLines rest)
  have hlines : logicalLines (front ++ rest) = logicalLines front ++
      (logicalLines rest).map (·.moved ⟨0, (physicalLines front).length⟩) := by
    rw [logicalLines, h.physicalLines_append, joinLines_append (fun _ ↦ rfl) h.last 1]
    exact congrArg (_ ++ ·) hrest
  rw [lineItems, hlines, List.flatMap_append, List.flatMap_map, lineItems, lineItems, List.map_flatMap]
  congr 2
  funext line
  exact line.items_moved _

theorem LineItem.moved_moved (item : LineItem) (behind count : Nat) :
    (item.moved ⟨0, count⟩).moved ⟨0, behind⟩ = (item.moved ⟨0, behind⟩).moved ⟨behind, count⟩ := by
  have hselection (selection : Selection) : (selection.moved ⟨0, count⟩).moved ⟨0, behind⟩ =
      (selection.moved ⟨0, behind⟩).moved ⟨behind, count⟩ := by
    simp only [Selection.moved, Insertion.move_move]
  cases item with
  | statement segment => exact congrArg (fun place ↦ statement ⟨segment.text, place⟩) (hselection _)
  | comment segment => exact congrArg (fun place ↦ comment ⟨segment.text, place⟩) (hselection _)

/-- Putting whole lines in changes nothing before them, and what stands behind them moves. -/
theorem EndsLine.lineItems_insert {before middle : List Char} (hbefore : EndsLine before)
    (hmiddle : EndsLine middle) (behind : List Char) :
    ∃ later, lineItems (before ++ behind) = lineItems before ++ later ∧
      lineItems (before ++ (middle ++ behind)) =
        lineItems before ++ (lineItems middle).map (·.moved ⟨0, (physicalLines before).length⟩) ++
          later.map (·.moved ⟨(physicalLines before).length, (physicalLines middle).length⟩) ∧
      (lineItems before).map
          (·.moved ⟨(physicalLines before).length, (physicalLines middle).length⟩) =
        lineItems before := by
  refine ⟨_, hbefore.lineItems_append behind, ?_, ?_⟩
  · rw [hbefore.lineItems_append, hmiddle.lineItems_append, List.map_append, List.map_map, List.map_map,
      List.append_assoc]
    congr 3
    funext item
    exact item.moved_moved _ _
  · refine List.map_congr_left (fun item hitem ↦ ?_) |>.trans (List.map_id _)
    obtain ⟨-, hle, hend⟩ := lines_of_mem_lineItems hitem
    refine LineItem.moved_eq_self _ ?_
    rw [Selection.moved, Insertion.move_of_le _ (hle.trans hend), Insertion.move_of_le _ hend]

end VbaLint.Source
