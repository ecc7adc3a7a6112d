import VbaLint.Editor.Diagnostic
import VbaLint.Proofs.Source.Written

/-!
# Positions in a document

An editor counts the lines of a document and the UTF-16 units on a line. A line ends at a line feed, at a
carriage return, or at both together. The reader counts characters, and its lines end at line feeds only. So
both agree on a place just if no carriage return stands alone before it and no character of two units stands
before it on its line.
-/

namespace VbaLint.Editor

open Source

/-! ## Positions -/

/-- The UTF-16 units of a character. -/
def units (c : Char) : Nat := if c.toNat < 0x10000 then 1 else 2

/-- The UTF-16 units of a text. -/
def width : List Char → Nat
  | [] => 0
  | c :: text => units c + width text

/-- A line of a document ends with the character if `rest` stands behind it. -/
def breaksLine (c : Char) (rest : List Char) : Bool :=
  c == '\n' || c == '\r' && rest.head? != some '\n'

namespace Position

/-- The position behind a character at `position` that `rest` follows. -/
def past (position : Position) (c : Char) (rest : List Char) : Position :=
  if breaksLine c rest then ⟨position.line + 1, 0⟩
  else ⟨position.line, position.character + units c⟩

/-- The position behind a text at `position` that `rest` follows. -/
def behind (position : Position) (rest : List Char) : List Char → Position
  | [] => position
  | c :: text => (position.past c (text ++ rest)).behind rest text

def between (before rest : List Char) : Position := behind ⟨0, 0⟩ rest before

/-- The position stands before the other. -/
def isBefore (position other : Position) : Bool :=
  position.line < other.line || position.line == other.line && position.character < other.character

end Position

namespace Range

/-- The range of `text` between the two other parts of a document. -/
def around (before text rest : List Char) : Range where
  start := .between before (text ++ rest)
  stop := .between (before ++ text) rest

/-- The characters of a text at `position` that the range selects. -/
def selected (range : Range) (position : Position) : List Char → List Char
  | [] => []
  | c :: rest =>
    let further := range.selected (position.past c rest) rest
    if position.isBefore range.stop && !position.isBefore range.start then c :: further else further

def textIn (range : Range) (document : List Char) : List Char := range.selected ⟨0, 0⟩ document

end Range

namespace Position

variable {position other : Position} {c : Char} {text more rest : List Char}

theorem isBefore_iff : position.isBefore other = true ↔ position.line < other.line ∨
    position.line = other.line ∧ position.character < other.character := by
  simp [isBefore]

theorem one_le_units (c : Char) : 1 ≤ units c := by
  unfold units
  split <;> decide

theorem isBefore_past (position : Position) (c : Char) (rest : List Char) :
    position.isBefore (position.past c rest) = true := by
  have hunits := one_le_units c
  rw [isBefore_iff, past]
  split
  · exact .inl (Nat.lt_succ_self _)
  · exact .inr ⟨rfl, by dsimp only; omega⟩

theorem behind_append (position : Position) (text more rest : List Char) :
    position.behind rest (text ++ more) = (position.behind (more ++ rest) text).behind rest more := by
  induction text generalizing position with
  | nil => rfl
  | cons c text ih =>
    rw [List.cons_append, behind, ih, behind, List.append_assoc]

/-- No text leads back. -/
theorem not_isBefore_behind (position : Position) (text rest : List Char) :
    (position.behind rest text).isBefore position = false := by
  induction text generalizing position with
  | nil => simp [behind, isBefore]
  | cons c text ih =>
    have hfirst := position.isBefore_past c (text ++ rest)
    have hlater := ih (position.past c (text ++ rest))
    rw [← Bool.not_eq_true, isBefore_iff] at hlater ⊢
    rw [isBefore_iff] at hfirst
    rw [behind]
    omega

theorem isBefore_behind_cons (position : Position) (c : Char) (text rest : List Char) :
    position.isBefore (position.behind rest (c :: text)) = true := by
  have hfirst := position.isBefore_past c (text ++ rest)
  have hlater := (position.past c (text ++ rest)).not_isBefore_behind text rest
  rw [← Bool.not_eq_true, isBefore_iff] at hlater
  rw [isBefore_iff] at hfirst ⊢
  rw [behind]
  omega

end Position

/-! ## What a range selects -/

namespace Range

variable {range : Range} {position : Position} {text rest : List Char}

theorem selected_of_stop (hstop : position.isBefore range.stop = false) (text : List Char) :
    range.selected position text = [] := by
  induction text generalizing position with
  | nil => rfl
  | cons c text ih =>
    have hlater : (position.past c text).isBefore range.stop = false := by
      have hpast := position.isBefore_past c text
      rw [← Bool.not_eq_true, Position.isBefore_iff] at hstop ⊢
      rw [Position.isBefore_iff] at hpast
      omega
    rw [selected, hstop, ih hlater]
    rfl

theorem selected_before (hstart : range.start = position.behind rest text) :
    range.selected position (text ++ rest) = range.selected range.start rest := by
  induction text generalizing position with
  | nil => rw [hstart]; rfl
  | cons c text ih =>
    have hoff : position.isBefore range.start = true := by
      rw [hstart]
      exact position.isBefore_behind_cons c text rest
    rw [List.cons_append, selected, hoff]
    simpa using ih hstart

theorem selected_inside (hstart : position.isBefore range.start = false)
    (hstop : range.stop = position.behind rest text) :
    range.selected position (text ++ rest) = text := by
  induction text generalizing position with
  | nil =>
    refine selected_of_stop ?_ rest
    rw [hstop]
    exact position.not_isBefore_behind [] rest
  | cons c text ih =>
    have hon : position.isBefore range.stop = true := by
      rw [hstop]
      exact position.isBefore_behind_cons c text rest
    have hlater : (position.past c (text ++ rest)).isBefore range.start = false := by
      have hpast := position.isBefore_past c (text ++ rest)
      rw [← Bool.not_eq_true, Position.isBefore_iff] at hstart ⊢
      rw [Position.isBefore_iff] at hpast
      omega
    rw [List.cons_append, selected, hon, hstart, ih hlater hstop]
    rfl

/-- The range of a text in a document selects this text. -/
theorem textIn_around (before text rest : List Char) :
    (around before text rest).textIn (before ++ (text ++ rest)) = text := by
  have hstart : (around before text rest).start = Position.behind ⟨0, 0⟩ (text ++ rest) before := rfl
  have hstop : (around before text rest).stop =
      (around before text rest).start.behind rest text := by
    rw [hstart, ← Position.behind_append]
    rfl
  rw [textIn, selected_before hstart]
  refine selected_inside ?_ hstop
  exact (around before text rest).start.not_isBefore_behind [] []

end Range

/-! ## Where the reader and the editor agree -/

/-- A carriage return stands in the text, and no line feed directly behind it, if `rest` follows the text. -/
def HasLoneReturn (text rest : List Char) : Prop :=
  ∃ front behind, text = front ++ '\r' :: behind ∧ (behind ++ rest).head? ≠ some '\n'

variable {position : Position} {c : Char} {above front text more rest : List Char}

theorem not_hasLoneReturn_of_not_mem (h : '\r' ∉ text) : ¬HasLoneReturn text rest := by
  rintro ⟨front, behind, rfl, -⟩
  exact h (List.mem_append_right _ List.mem_cons_self)

theorem hasLoneReturn_cons : HasLoneReturn (c :: text) rest ↔
    (c = '\r' ∧ (text ++ rest).head? ≠ some '\n') ∨ HasLoneReturn text rest := by
  constructor
  · rintro ⟨front, behind, hsplit, hhead⟩
    cases front with
    | nil =>
      obtain ⟨rfl, rfl⟩ := List.cons.inj hsplit
      exact .inl ⟨rfl, hhead⟩
    | cons d front =>
      obtain ⟨rfl, rfl⟩ := List.cons.inj hsplit
      exact .inr ⟨front, behind, rfl, hhead⟩
  · rintro (⟨rfl, hhead⟩ | ⟨front, behind, rfl, hhead⟩)
    · exact ⟨[], text, rfl, hhead⟩
    · exact ⟨c :: front, behind, rfl, hhead⟩

theorem hasLoneReturn_append : HasLoneReturn (text ++ more) rest ↔
    HasLoneReturn text (more ++ rest) ∨ HasLoneReturn more rest := by
  induction text with
  | nil =>
    have hnone : ¬HasLoneReturn [] (more ++ rest) := not_hasLoneReturn_of_not_mem List.not_mem_nil
    rw [List.nil_append, or_iff_right hnone]
  | cons c text ih => rw [List.cons_append, hasLoneReturn_cons, hasLoneReturn_cons, ih, List.append_assoc,
      or_assoc]

theorem breaksLine_iff :
    breaksLine c rest = true ↔ c = '\n' ∨ c = '\r' ∧ rest.head? ≠ some '\n' := by
  simp [breaksLine]

namespace Position

/-- An editor counts at least the line feeds as line ends, and no other just if no carriage return stands
alone. -/
theorem line_behind (position : Position) (text rest : List Char) :
    position.line + text.count '\n' ≤ (position.behind rest text).line ∧
      ((position.behind rest text).line = position.line + text.count '\n' ↔
        ¬HasLoneReturn text rest) := by
  induction text generalizing position with
  | nil => exact ⟨le_rfl, iff_of_true rfl (not_hasLoneReturn_of_not_mem List.not_mem_nil)⟩
  | cons c text ih =>
    obtain ⟨hle, hiff⟩ := ih (position.past c (text ++ rest))
    rw [behind, hasLoneReturn_cons, not_or, ← hiff]
    by_cases hbreaks : breaksLine c (text ++ rest) = true
    · have hpast : (position.past c (text ++ rest)).line = position.line + 1 := by
        rw [past, if_pos hbreaks]
      rw [hpast] at hle ⊢
      rcases breaksLine_iff.1 hbreaks with rfl | ⟨rfl, hhead⟩
      · rw [List.count_cons_self]
        refine ⟨by omega, ?_⟩
        rw [and_iff_right fun h ↦ absurd h.1 (by decide)]
        omega
      · rw [List.count_cons_of_ne (by decide)]
        refine ⟨by omega, iff_of_false (by omega) fun h ↦ h.1 ⟨rfl, hhead⟩⟩
    · have hpast : (position.past c (text ++ rest)).line = position.line := by
        rw [past, if_neg hbreaks]
      rw [breaksLine_iff, not_or] at hbreaks
      rw [hpast] at hle ⊢
      rw [List.count_cons_of_ne hbreaks.1, and_iff_right hbreaks.2]
      exact ⟨hle, Iff.rfl⟩

/-- On a line an editor counts the units of the characters. -/
theorem behind_of_noBreak (position : Position) (hfeed : '\n' ∉ text)
    (hreturn : ¬HasLoneReturn text rest) :
    position.behind rest text = ⟨position.line, position.character + width text⟩ := by
  induction text generalizing position with
  | nil => rfl
  | cons c text ih =>
    rw [List.mem_cons, not_or] at hfeed
    rw [hasLoneReturn_cons, not_or] at hreturn
    have hbreaks : ¬breaksLine c (text ++ rest) = true := by
      rw [breaksLine_iff, not_or]
      exact ⟨fun heq ↦ hfeed.1 heq.symm, hreturn.1⟩
    rw [behind, past, if_neg hbreaks, ih _ hfeed.2 hreturn.2, width, Nat.add_assoc]

/-- Behind whole lines a line begins. -/
theorem character_behind_of_isWholeLines (h : IsWholeLines text) (rest : List Char) :
    (behind ⟨0, 0⟩ rest text).character = 0 := by
  obtain rfl | ⟨front, rfl⟩ := h
  · rfl
  · rw [behind_append, behind, behind, past, if_pos (breaksLine_iff.2 (.inl rfl))]

end Position

/-- The units are at least as many as the characters, and as many just if each character has one. -/
theorem length_le_width (text : List Char) : text.length ≤ width text ∧
    (width text = text.length ↔ ∀ c ∈ text, units c = 1) := by
  induction text with
  | nil => simp [width]
  | cons c text ih =>
    obtain ⟨hle, hiff⟩ := ih
    have hunits := Position.one_le_units c
    rw [width, List.length_cons, List.forall_mem_cons, ← hiff]
    omega

section

variable {source behind : List Char} {p q : Place} (h : StandsAt p source above front text behind)
include h

/-- The range of a text in a document begins on the line of the text or, if a carriage return stands alone
before it, further down. -/
theorem Range.start_around : p.line ≤ (around (above ++ front) text behind).start.line + 1 ∧
    ((around (above ++ front) text behind).start.line + 1 = p.line ↔
      ¬HasLoneReturn (above ++ front) (text ++ behind)) ∧
    (¬HasLoneReturn (above ++ front) (text ++ behind) →
      (around (above ++ front) text behind).start.character = width front) := by
  have hcount : (above ++ front).count '\n' + 1 = p.line := by
    rw [h.line_eq, List.count_append, List.count_eq_zero.2 h.noFeed.1, Nat.add_zero]
  obtain ⟨hle, hiff⟩ := Position.line_behind ⟨0, 0⟩ (above ++ front) (text ++ behind)
  dsimp only at hle hiff
  have hstart : (around (above ++ front) text behind).start =
      Position.behind ⟨0, 0⟩ (text ++ behind) (above ++ front) := rfl
  rw [hstart]
  refine ⟨by omega, ?_, fun hreturn ↦ ?_⟩
  · rw [← hiff]
    omega
  · rw [hasLoneReturn_append, not_or] at hreturn
    rw [Position.behind_append, Position.behind_of_noBreak _ h.noFeed.1 hreturn.2]
    dsimp only
    rw [Position.character_behind_of_isWholeLines h.whole, Nat.zero_add]

theorem Range.stop_around (hreturn : '\r' ∉ text) :
    (around (above ++ front) text behind).stop =
      ⟨(around (above ++ front) text behind).start.line,
        (around (above ++ front) text behind).start.character + width text⟩ := by
  have hstop : (around (above ++ front) text behind).stop =
      (around (above ++ front) text behind).start.behind behind text :=
    Position.behind_append ⟨0, 0⟩ (above ++ front) text behind
  rw [hstop, Position.behind_of_noBreak _ h.noFeed.2 (not_hasLoneReturn_of_not_mem hreturn)]

end

/-- The range of a piece that is written on one line is the range of its text in the document just if it
lies on this line, no carriage return stands alone before it, and each character up to its end on the line
has one unit. -/
theorem Range.ofSelection_eq_around_iff {piece : Segment} {source behind : List Char} {p q : Place}
    (hpiece : piece.IsWrittenFrom (physicalLines source) p q)
    (hstands : StandsAt p source above front piece.text behind) (hreturn : '\r' ∉ piece.text) :
    ofSelection piece.selection = around (above ++ front) piece.text behind ↔
      piece.selection.startLine = p.line ∧ piece.selection.endLine = p.line ∧
        ¬HasLoneReturn (above ++ front) (piece.text ++ behind) ∧
          ∀ c ∈ front ++ piece.text, units c = 1 := by
  obtain ⟨hline, hpos, hcolumn⟩ := hpiece.begins
  obtain ⟨hstart, hlone, hcharacter⟩ := start_around hstands
  have hstop := stop_around hstands hreturn
  have hordered := hpiece.ordered
  have hcolumns := hstands.column_eq
  obtain ⟨hfront, hfront'⟩ := length_le_width front
  obtain ⟨htext, htext'⟩ := length_le_width piece.text
  rw [List.forall_mem_append, ← hfront', ← htext', ← hlone]
  rw [← hlone] at hcharacter
  generalize around (above ++ front) piece.text behind = range at hstart hlone hcharacter hstop ⊢
  obtain ⟨⟨line, character⟩, stop⟩ := range
  dsimp only at hstart hlone hcharacter hstop ⊢
  rw [hstop, ofSelection, Range.mk.injEq, Position.mk.injEq, Position.mk.injEq]
  constructor
  · rintro ⟨⟨hfirstLine, hfirstCharacter⟩, hlastLine, hlastCharacter⟩
    -- An editor never counts fewer lines than the reader, so equal lines mean that both count the same.
    have hsame : piece.selection.startLine = p.line := by omega
    have hend : piece.selection.startLine = piece.selection.endLine := by omega
    have hstartColumn := hcolumn hsame
    have hendColumn := hpiece.endColumn_eq hend
    have hunits := hcharacter (by omega)
    refine ⟨hsame, hend.symm.trans hsame, ?_, ?_, ?_⟩ <;> omega
  · rintro ⟨hsame, hend, hunbroken, hfrontUnits, htextUnits⟩
    have hstartColumn := hcolumn hsame
    have hendColumn := hpiece.endColumn_eq (hsame.trans hend.symm)
    have hunits := hcharacter hunbroken
    refine ⟨⟨?_, ?_⟩, ?_, ?_⟩ <;> omega

end VbaLint.Editor
