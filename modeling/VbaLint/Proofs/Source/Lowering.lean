import VbaLint.Proofs.Text.Lowering
import VbaLint.Source.Segment

/-!
# Lines of lowered texts

A text with its ASCII letters lowered has the same lines, statements and comments at the same
places, each with its letters lowered.
-/

namespace VbaLint.Source

open Text

theorem withoutReturn_lowerAscii (reversed : List Char) :
    withoutReturn (lowerAscii reversed) = lowerAscii (withoutReturn reversed) := by
  cases reversed with
  | nil => rfl
  | cons c reversed =>
    by_cases hreturn : c = '\r'
    · subst hreturn
      rfl
    · have hlowered : c.toLower ≠ '\r' := mt (toLower_eq_iff (by decide)).1 hreturn
      simp [withoutReturn, hreturn, hlowered]

theorem linesFrom_lowerAscii (reversed text : List Char) :
    linesFrom (lowerAscii reversed) (lowerAscii text) =
      (linesFrom reversed text).map lowerAscii := by
  induction text generalizing reversed with
  | nil =>
    simp only [lowerAscii_nil, linesFrom, lowerAscii_eq_nil]
    split
    · rfl
    · simp [reverse_lowerAscii]
  | cons c rest ih =>
    simp only [lowerAscii_cons, linesFrom, toLower_eq_iff (show ('\n').isAlpha = false by decide)]
    split
    · rw [withoutReturn_lowerAscii, reverse_lowerAscii, List.map_cons]
      exact congrArg (_ :: ·) (ih [])
    · rw [← lowerAscii_cons, ih]

@[simp]
theorem physicalLines_lowerAscii (source : List Char) :
    physicalLines (lowerAscii source) = (physicalLines source).map lowerAscii :=
  linesFrom_lowerAscii [] source

@[simp]
theorem isContinued_lowerAscii (line : List Char) :
    isContinued (lowerAscii line) = isContinued line := by
  have hmark : (lowerAscii line == ['_']) = (line == ['_']) := by
    rw [Bool.eq_iff_iff, beq_iff_eq, beq_iff_eq, lowerAscii_eq_iff (by decide)]
  rw [isContinued, hmark, isSuffixOf_lowerAscii (by decide), isContinued]

@[simp]
theorem lineContent_lowerAscii (line : List Char) :
    lineContent (lowerAscii line) = lowerAscii (lineContent line) := by
  simp only [lineContent, trimEnd_lowerAscii, isContinued_lowerAscii, dropLast_lowerAscii]
  split <;> rfl

namespace LogicalLine

def lowered (line : LogicalLine) : LogicalLine := { line with text := lowerAscii line.text }

theorem begin_lowerAscii (number : Nat) (line : List Char) :
    begin number (lowerAscii line) = (begin number line).lowered := by
  simp [begin, lowered]

theorem prolong_lowered (logical : LogicalLine) (number : Nat) (line : List Char) :
    logical.lowered.prolong number (lowerAscii line) = (logical.prolong number line).lowered := by
  simp [prolong, lowered]

end LogicalLine

theorem joinLines_lowerAscii (pending : Option LogicalLine) (number : Nat)
    (lines : List (List Char)) :
    joinLines (pending.map LogicalLine.lowered) number (lines.map lowerAscii) =
      (joinLines pending number lines).map LogicalLine.lowered := by
  induction lines generalizing pending number with
  | nil => cases pending <;> rfl
  | cons line rest ih =>
    cases pending with
    | none =>
      simp only [List.map_cons, Option.map_none, joinLines, trimEnd_lowerAscii,
        isContinued_lowerAscii, LogicalLine.begin_lowerAscii]
      split
      · exact ih (some (.begin number line)) (number + 1)
      · exact congrArg (_ :: ·) (ih none (number + 1))
    | some started =>
      simp only [List.map_cons, Option.map_some, joinLines, trimEnd_lowerAscii,
        isContinued_lowerAscii, LogicalLine.prolong_lowered]
      split
      · exact ih (some (started.prolong number line)) (number + 1)
      · exact congrArg (_ :: ·) (ih none (number + 1))

theorem logicalLines_lowerAscii (source : List Char) :
    logicalLines (lowerAscii source) = (logicalLines source).map LogicalLine.lowered := by
  rw [logicalLines, physicalLines_lowerAscii]
  exact joinLines_lowerAscii none 1 (physicalLines source)

theorem splitComment_lowerAscii (inString : Bool) (text : List Char) :
    splitComment inString (lowerAscii text) =
      (splitComment inString text).map lowerAscii lowerAscii := by
  induction text generalizing inString with
  | nil => rfl
  | cons c rest ih =>
    simp only [lowerAscii_cons, splitComment,
      toLower_eq_iff (show ('\'').isAlpha = false by decide),
      toLower_eq_iff (show ('"').isAlpha = false by decide), ih]
    split <;> rfl

theorem statementPieces_lowerAscii (inString : Bool) (text : List Char) :
    statementPieces inString (lowerAscii text) =
      (statementPieces inString text).map lowerAscii := by
  induction text generalizing inString with
  | nil => rfl
  | cons c rest ih =>
    have hequals : (rest.head?.map Char.toLower != some '=') = (rest.head? != some '=') :=
      congrArg (!·) (map_toLower_beq_some (by decide))
    simp only [lowerAscii_cons, statementPieces, head?_lowerAscii, hequals,
      toLower_eq_iff (show (':').isAlpha = false by decide),
      toLower_eq_iff (show ('"').isAlpha = false by decide), ih]
    split
    · rfl
    · rw [consPiece_lowerAscii]

@[simp]
theorem isRemark_lowerAscii (statement : List Char) :
    isRemark (lowerAscii statement) = isRemark statement := by
  rw [isRemark, lowerAscii_lowerAscii, isRemark]

def Segment.lowered (segment : Segment) : Segment :=
  { segment with text := lowerAscii segment.text }

def LineItem.lowered : LineItem → LineItem
  | .statement segment => .statement segment.lowered
  | .comment segment => .comment segment.lowered

namespace LogicalLine

variable (line : LogicalLine)

theorem place_lowered (span : Span) : line.lowered.place span.lowered = line.place span := by
  simp [place, lowered, isSingle]

theorem codeSpans_lowered : line.lowered.codeSpans = line.codeSpans.map Span.lowered := by
  rw [codeSpans, lowered, splitComment_lowerAscii]
  exact (congrArg _ (statementPieces_lowerAscii false _)).trans (locatePieces_lowerAscii 0 _)

theorem isRemark_comp_lowered :
    (fun span : Span ↦ !isRemark span.text) ∘ Span.lowered = fun span ↦ !isRemark span.text := by
  funext span
  exact congrArg (!·) (isRemark_lowerAscii span.text)

theorem statements_lowered : line.lowered.statements = line.statements.map Segment.lowered := by
  rw [statements, codeSpans_lowered, List.takeWhile_map, statements, List.map_map, List.map_map]
  rw [isRemark_comp_lowered]
  apply List.map_congr_left
  intro span _
  exact congrArg (Segment.mk (lowerAscii span.text)) (line.place_lowered span)

theorem comment?_lowered : line.lowered.comment? = line.comment?.map Segment.lowered := by
  have htext : line.lowered.text = lowerAscii line.text := rfl
  rw [comment?, codeSpans_lowered, List.dropWhile_map, isRemark_comp_lowered, htext,
    splitComment_lowerAscii, comment?]
  cases line.codeSpans.dropWhile fun span ↦ !isRemark span.text with
  | nil =>
    obtain ⟨code, comment⟩ := splitComment false line.text
    cases comment with
    | nil => rfl
    | cons c comment =>
      simp [Segment.lowered, drop_lowerAscii, lowered]
  | cons span rest =>
    simp [Segment.lowered, drop_lowerAscii, lowered]

theorem items_lowered : line.lowered.items = line.items.map LineItem.lowered := by
  rw [items, statements_lowered, comment?_lowered, items, List.map_append]
  congr 1
  · simp [LineItem.lowered]
  · cases line.comment? <;> rfl

end LogicalLine

/-- A lowered text has the lowered statements and comments of the text. -/
theorem lineItems_lowerAscii (source : List Char) :
    lineItems (lowerAscii source) = (lineItems source).map LineItem.lowered := by
  rw [lineItems, logicalLines_lowerAscii, lineItems, List.flatMap_map, List.map_flatMap]
  congr 1
  funext line
  exact line.items_lowered

end VbaLint.Source
