import VbaLint.Proofs.Source.Ranges

/-!
# Pieces written in a text

A piece that is read within one line stands in the text behind whole lines and the front of its own line. Each
statement, and each stretch of one, is read at least at as many characters behind the start of a line as its
range says.
-/

namespace VbaLint.Source

/-- The text is empty or ends with a line feed. -/
def IsWholeLines (text : List Char) : Prop := text = [] ∨ ∃ front, text = front ++ ['\n']

/-- The text stands in the document at the place `p`, behind whole lines and the front of its own line. -/
structure StandsAt (p : Place) (document above front text behind : List Char) : Prop where
  split : document = above ++ (front ++ (text ++ behind))
  whole : IsWholeLines above
  line_eq : p.line = above.count '\n' + 1
  column_eq : p.column = front.length + 1
  noFeed : '\n' ∉ front ∧ '\n' ∉ text

/-- The piece is written in the source from `p` up to `q`, as many characters behind the start of the line on
which its range begins as its range says. If its range stays on one line, it has the length of the piece. -/
structure Segment.IsWrittenFrom (piece : Segment) (lines : List (List Char)) (p q : Place) : Prop where
  before : ∃ before, Walk lines ⟨piece.selection.startLine, 1⟩ before p ∧
    piece.selection.startColumn = before.length + 1
  text : Walk lines p piece.text q
  ne_nil : piece.text ≠ []
  ordered : piece.selection.startLine ≤ piece.selection.endLine
  endColumn_eq : piece.selection.startLine = piece.selection.endLine →
    piece.selection.endColumn + 1 = piece.selection.startColumn + piece.text.length

variable {lines : List (List Char)} {source line text : List Char} {p q : Place} {number : Nat}

/-- Nothing is read above the first line. -/
theorem Walk.line_pos (h : Walk lines p text q) (htext : text ≠ []) : 0 < p.line := by
  refine Nat.pos_of_ne_zero fun hzero ↦ ?_
  cases h with
  | stay => exact htext rfl
  | char hc =>
    cases hzero
    cases hc
  | next hcontinues =>
    cases hzero
    have hempty : isContinued (Text.trimEnd []) = true := hcontinues.1
    exact absurd hempty (by decide)

/-- A piece is written at or below the line on which its range begins, and at the column of its range if
this is its line. -/
theorem Segment.IsWrittenFrom.begins {piece : Segment} (h : piece.IsWrittenFrom lines p q) :
    piece.selection.startLine ≤ p.line ∧ 0 < piece.selection.startLine ∧
      (piece.selection.startLine = p.line → piece.selection.startColumn = p.column) := by
  obtain ⟨before, hbefore, hcolumn⟩ := h.before
  refine ⟨hbefore.line_le, (hbefore.append h.text).line_pos ?_, fun hline ↦ ?_⟩
  · exact fun hnil ↦ h.ne_nil (List.append_eq_nil_iff.1 hnil).2
  · rw [hcolumn, hbefore.column_eq hline, Nat.add_comm]

theorem exists_append_withoutReturn (reversed : List Char) :
    ∃ ending, reversed.reverse = (withoutReturn reversed).reverse ++ ending := by
  cases reversed with
  | nil => exact ⟨[], rfl⟩
  | cons c rest =>
    by_cases hreturn : c = '\r'
    · rw [hreturn]
      exact ⟨['\r'], List.reverse_cons⟩
    · rw [withoutReturn.eq_2 _ fun rest' heq ↦ hreturn (List.cons.inj heq).1]
      exact ⟨[], (List.append_nil _).symm⟩

/-- A line stands in its text behind whole lines. -/
theorem exists_splits_linesFrom {reversed : List Char} (hreversed : '\n' ∉ reversed)
    (h : (linesFrom reversed source)[number]? = some line) :
    ∃ above behind, reversed.reverse ++ source = above ++ (line ++ behind) ∧ IsWholeLines above ∧
      above.count '\n' = number ∧ '\n' ∉ line := by
  induction source generalizing reversed number with
  | nil =>
    rw [linesFrom] at h
    split at h
    · cases h
    · obtain ⟨rfl, rfl⟩ : number = 0 ∧ reversed.reverse = line := by
        cases number <;> simp_all
      exact ⟨[], [], rfl, .inl rfl, List.count_nil, by rwa [List.mem_reverse]⟩
  | cons c source ih =>
    rw [linesFrom] at h
    split at h
    · next hfeed =>
      subst hfeed
      cases number with
      | zero =>
        obtain ⟨ending, hending⟩ := exists_append_withoutReturn reversed
        obtain rfl : (withoutReturn reversed).reverse = line := Option.some.inj h
        refine ⟨[], ending ++ '\n' :: source, ?_, .inl rfl, List.count_nil, fun hmem ↦ hreversed ?_⟩
        · rw [hending, List.nil_append, List.append_assoc]
        · rw [← List.mem_reverse, hending]
          exact List.mem_append_left _ hmem
      | succ number =>
        obtain ⟨above, behind, hsplit, habove, hcount, hline⟩ := ih List.not_mem_nil h
        rw [List.reverse_nil, List.nil_append] at hsplit
        refine ⟨reversed.reverse ++ '\n' :: above, behind, ?_, .inr ?_, ?_, hline⟩
        · rw [hsplit, List.append_assoc, List.cons_append]
        · obtain rfl | ⟨front, rfl⟩ := habove
          · exact ⟨reversed.reverse, rfl⟩
          · exact ⟨reversed.reverse ++ '\n' :: front, by rw [List.append_assoc, List.cons_append]⟩
        · have hnone : reversed.reverse.count '\n' = 0 := by
            rwa [List.count_eq_zero, List.mem_reverse]
          rw [List.count_append, hnone, List.count_cons_self, hcount, Nat.zero_add]
    · next hfeed =>
      have hreversed' : '\n' ∉ c :: reversed := by
        rw [List.mem_cons]
        exact fun hmem ↦ hmem.elim (fun heq ↦ hfeed heq.symm) hreversed
      simpa using ih hreversed' h

/-- What is read on one line of a text stands there. -/
theorem Walk.exists_standsAt (h : Walk (physicalLines source) p text q) (hline : p.line = q.line)
    (htext : text ≠ []) : ∃ above front behind, StandsAt p source above front text behind := by
  obtain ⟨rest, hrest⟩ := h.isPrefix_drop hline
  have hcolumn : 0 < p.column := by
    cases h with
    | stay => exact absurd rfl htext
    | char => exact Nat.succ_pos _
    | next => exact Nat.succ_pos _
  let front := (lineAt (physicalLines source) p.line).take (p.column - 1)
  have hsplit : lineAt (physicalLines source) p.line = front ++ (text ++ rest) := by
    rw [hrest, List.take_append_drop]
  have hfront : front.length = p.column - 1 := by
    refine List.length_take_of_le (Nat.le_of_not_lt fun hlt ↦ htext ?_)
    rw [List.drop_eq_nil_of_le hlt.le] at hrest
    exact (List.append_eq_nil_iff.1 hrest).1
  obtain ⟨number, hnumber⟩ : ∃ number, p.line = number + 1 := by
    refine Nat.exists_eq_succ_of_ne_zero fun hzero ↦ htext ?_
    rw [hzero, lineAt, List.drop_nil] at hrest
    exact (List.append_eq_nil_iff.1 hrest).1
  have hat : (physicalLines source)[number]? = some (front ++ (text ++ rest)) := by
    rw [hnumber, lineAt] at hsplit
    cases hknown : (physicalLines source)[number]? with
    | some line => rw [← hsplit, hknown, Option.getD_some]
    | none =>
      rw [hknown, Option.getD_none] at hsplit
      have hnil := List.append_eq_nil_iff.1 hsplit.symm
      exact absurd (List.append_eq_nil_iff.1 hnil.2).1 htext
  obtain ⟨above, behind, hsource, habove, hcount, hfeed⟩ := exists_splits_linesFrom List.not_mem_nil hat
  simp only [List.mem_append, not_or] at hfeed
  rw [List.reverse_nil, List.nil_append] at hsource
  refine ⟨above, front, rest ++ behind, ?_, habove, by rw [hnumber, hcount], by omega, hfeed.1, hfeed.2.1⟩
  rw [hsource, List.append_assoc, List.append_assoc]

/-- Each statement of a text is written in it as its range says. -/
theorem exists_isWrittenFrom_of_mem_statementsOf {statement : Segment} (h : statement ∈ statementsOf source) :
    ∃ p q, statement.IsWrittenFrom (physicalLines source) p q := by
  rw [statementsOf_eq] at h
  obtain ⟨line, hline, hmem⟩ := List.mem_flatMap.1 h
  have hread := isRead_of_mem_logicalLines hline
  obtain ⟨p, q, hfrom⟩ := LogicalLine.exists_isReadFrom hread hmem
  obtain ⟨hstart, hend⟩ := LogicalLine.lines_of_mem_statements hmem
  obtain ⟨c, hhead, -⟩ := hfrom.begins
  refine ⟨p, q, hfrom.before, hfrom.text, fun hnil ↦ ?_, ?_, fun hsingle ↦ ?_⟩
  · rw [hnil] at hhead
    cases hhead
  · rw [hstart, hend]
    exact hread.line_le
  · obtain ⟨hfirst, hlast⟩ := hfrom.eq_of_single hmem (hstart.symm.trans (hsingle.trans hend))
    have hline : p.line = q.line := by
      rw [← hfirst, hlast]
      exact hsingle
    have hcolumn := hfrom.text.column_eq hline
    rw [hlast, ← hfirst] at hcolumn
    exact hcolumn

/-- A stretch of a piece that is written somewhere is written there, on the line on which the range of the
piece begins or further down. -/
theorem Segment.IsWrittenFrom.stretch {piece : Segment} (h : piece.IsWrittenFrom lines p q)
    {front rest : List Char} (hsplit : piece.text = front ++ text ++ rest) (htext : text ≠ []) :
    ∃ p' q', IsWrittenFrom ⟨text, .onLine piece.selection.startLine
      (piece.selection.startColumn + front.length) text.length⟩ lines p' q' := by
  obtain ⟨before, hbefore, hcolumn⟩ := h.before
  have hwalk := h.text
  rw [hsplit] at hwalk
  obtain ⟨q', hupto, -⟩ := hwalk.exists_between
  obtain ⟨p', hfront, hstretch⟩ := hupto.exists_between
  have hlength := List.length_pos_iff.2 htext
  refine ⟨p', q', ⟨before ++ front, hbefore.append hfront, ?_⟩, hstretch, htext, le_rfl, fun _ ↦ ?_⟩
  · rw [Selection.onLine, hcolumn, List.length_append]
    dsimp only
    omega
  · rw [Selection.onLine, if_neg (Nat.ne_of_gt hlength)]
    dsimp only
    omega

end VbaLint.Source
