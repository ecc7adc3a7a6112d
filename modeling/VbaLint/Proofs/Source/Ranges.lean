import VbaLint.Proofs.Module.StatementNodes
import VbaLint.Proofs.Source.Walks

/-!
# Ranges of statements

The range of a statement counts its columns along the logical line. It is where the statement is written
if the logical line is a single physical line. On a line that goes on, the statements begin where they are
said to as long as they begin on the first physical line, but all of them end at the end of the last.
-/

namespace VbaLint.Source

open Text

variable {lines : List (List Char)} {line : LogicalLine} {statement : Segment} {span : Span}

/-! ## Statements of a line -/

/-- A character that may stand next to a statement: a blank, a separator or the mark of a comment. -/
def IsEdge (c : Char) : Prop := isBlank c = true ∨ c = ':' ∨ c = '\''

/-- The code and the comment make up the line, and the comment begins with its mark. -/
theorem splitComment_append (inString : Bool) (text : List Char) :
    text = (splitComment inString text).1 ++ (splitComment inString text).2 ∧
      ∀ c ∈ (splitComment inString text).2.head?, c = '\'' := by
  induction text generalizing inString with
  | nil => exact ⟨rfl, nofun⟩
  | cons c rest ih =>
    rw [splitComment]
    split
    · next hmark =>
      refine ⟨rfl, ?_⟩
      rintro _ ⟨⟩
      exact of_decide_eq_true (Bool.and_eq_true_iff.1 hmark).1
    · obtain ⟨htext, hcomment⟩ := ih (if c = '"' then !inString else inString)
      exact ⟨congrArg (c :: ·) htext, hcomment⟩

theorem cutAt_statementPieces (inString : Bool) (text : List Char) :
    CutAt (· = ':') text (statementPieces inString text) := by
  induction text generalizing inString with
  | nil => exact .last []
  | cons c rest ih =>
    rw [statementPieces]
    split
    · next hcut =>
      obtain rfl : c = ':' := by simp_all
      exact CutAt.cons (p := (· = ':')) [] rfl rfl (ih inString)
    · exact (ih _).consPiece c

namespace LogicalLine

/-- A piece of code stands between edges of statements. -/
theorem exists_splits_of_mem_codeSpans (h : span ∈ line.codeSpans) :
    ∃ before behind, span.Splits line.text before behind ∧
      (∀ c ∈ before.getLast?, IsEdge c) ∧ ∀ c ∈ behind.head?, IsEdge c := by
  obtain ⟨htext, hcomment⟩ := splitComment_append false line.text
  obtain ⟨before, behind, hcode, hoffset, hbefore, hbehind⟩ :=
    exists_splits_of_mem_locatePieces (cutAt_statementPieces false _) h
  refine ⟨before, behind ++ (splitComment false line.text).2, ⟨?_, ?_⟩, fun c hc ↦ ?_, fun c hc ↦ ?_⟩
  · rw [← List.append_assoc, ← hcode]
    exact htext
  · rw [hoffset, Nat.zero_add]
  · exact (hbefore c hc).imp_right .inl
  · cases behind with
    | nil => exact .inr (.inr (hcomment c hc))
    | cons d behind => exact (hbehind c hc).imp_right .inl

variable (line span)

theorem startLine_place : (line.place span).startLine = line.startLine := by
  rw [place]
  split <;> rfl

/-- The column of a part counts the characters in front of it. -/
theorem startColumn_place :
    (line.place span).startColumn = (takeBytes span.offset line.text).length + 1 := by
  rw [place]
  split <;> rfl

theorem endLine_place : (line.place span).endLine = line.endLine := by
  rw [place]
  split
  · next hsingle => exact eq_of_beq hsingle
  · rfl

/-- A statement takes the first and the last line of its logical line. -/
theorem lines_of_mem_statements {line : LogicalLine} (h : statement ∈ line.statements) :
    statement.selection.startLine = line.startLine ∧ statement.selection.endLine = line.endLine := by
  obtain ⟨span, -, rfl⟩ := List.mem_map.1 h
  exact ⟨line.startLine_place span, line.endLine_place span⟩

end LogicalLine

/-! ## Where a statement is written -/

/-- The statement is written in the source from `p` up to `q`. Its range begins on the line on which one
starts to read, and gives as column how much is read before the statement. -/
structure Segment.IsReadFrom (statement : Segment) (lines : List (List Char)) (p q : Place) : Prop where
  before : ∃ before, Walk lines ⟨statement.selection.startLine, 1⟩ before p ∧
    statement.selection.startColumn = before.length + 1
  text : Walk lines p statement.text q
  endLine : q.line ≤ statement.selection.endLine
  begins : ∃ c, statement.text.head? = some c ∧ isBlank c = false ∧ charAt lines p = some c
  left {c : Char} (hc : charAt lines ⟨p.line, p.column - 1⟩ = some c) : IsEdge c
  right {c : Char} (hc : charAt lines q = some c) : IsEdge c

namespace LogicalLine

/-- Each statement of a logical line is written between the start and the end of the line. -/
theorem exists_isReadFrom (hline : line.IsRead lines) (h : statement ∈ line.statements) :
    ∃ p q, statement.IsReadFrom lines p q := by
  obtain ⟨span, hspan, rfl⟩ := List.mem_map.1 h
  have hmem : span ∈ line.codeSpans := (List.takeWhile_sublist _).mem hspan
  obtain ⟨before, behind, hsplits, hbefore, hbehind⟩ := exists_splits_of_mem_codeSpans hmem
  obtain ⟨piece, -, hpiece, hne⟩ := exists_piece_of_mem_locatePieces hmem
  rw [IsRead, hsplits.text_eq] at hline
  obtain ⟨q, hupto, hbeyond⟩ := hline.exists_between
  obtain ⟨p, hbegin, hwalk⟩ := hupto.exists_between
  have hsolid : ∃ c, span.text.head? = some c ∧ isBlank c = false := by
    obtain ⟨c, rest, hcons⟩ := List.exists_cons_of_ne_nil hne
    have hhead : (trim piece).head? = some c := by rw [hcons, List.head?_cons]
    exact ⟨c, hpiece ▸ hhead, not_isBlank_of_head_trim hhead⟩
  have hcode : codeAt lines q.line ≠ [] := by
    obtain hnil | ⟨front, d, hconcat⟩ := List.eq_nil_or_concat (trim piece)
    · exact absurd hnil hne
    rw [List.concat_eq_append] at hconcat
    have hlast : (trimEnd (trimStart piece)).getLast? = some d := by
      rw [← trim, hconcat, List.getLast?_concat]
    rw [hpiece, hconcat] at hwalk
    exact hwalk.codeAt_ne_nil (not_isBlank_of_getLast_trimEnd hlast)
  obtain ⟨c, hhead, hblank⟩ := hsolid
  refine ⟨p, q, ?_, hwalk, ?_, ⟨c, hhead, hblank, ?_⟩, fun hc ↦ ?_, fun hc ↦ ?_⟩
  · refine ⟨before, ?_, ?_⟩
    · rw [startLine_place]
      exact hbegin
    · rw [startColumn_place, hsplits.takeBytes_eq]
  · rw [endLine_place]
    exact hbeyond.line_le
  · obtain ⟨rest, hcons⟩ := List.head?_eq_some_iff.1 hhead
    rw [hcons] at hwalk
    exact hwalk.charAt_eq hblank
  · exact (hbegin.left hc).elim (hbefore _) .inl
  · exact (Walk.right hcode hbeyond hc).elim (hbehind _) .inl

/-! ## Ranges -/

/-- The range of a statement on a line that does not go on ends with the text of the statement. -/
theorem endColumn_place_of_single (hsingle : line.startLine = line.endLine) (hne : span.text ≠ []) :
    (line.place span).endColumn = (takeBytes span.offset line.text).length + span.text.length := by
  have hlength := List.length_pos_iff.2 hne
  rw [place, isSingle, if_pos (beq_iff_eq.2 hsingle), Selection.onLine, if_neg (by omega)]
  dsimp only
  omega

theorem text_ne_nil_of_mem_codeSpans (h : span ∈ line.codeSpans) : span.text ≠ [] := by
  obtain ⟨piece, -, hpiece, hne⟩ := exists_piece_of_mem_locatePieces h
  rwa [hpiece]

/-- Pieces of code that follow one another do so in the columns. -/
theorem length_takeBytes_lt {later : Span} (h : span ∈ line.codeSpans) (h' : later ∈ line.codeSpans)
    (hlt : span.offset + byteLength span.text < later.offset) :
    (takeBytes span.offset line.text).length + span.text.length <
      (takeBytes later.offset line.text).length := by
  obtain ⟨_, _, hsplits, -⟩ := exists_splits_of_mem_codeSpans h
  obtain ⟨_, _, hsplits', -⟩ := exists_splits_of_mem_codeSpans h'
  rw [hsplits.takeBytes_eq, hsplits'.takeBytes_eq]
  exact hsplits.length_lt hsplits' hlt

/-- The statements of one logical line begin one behind the other. They overlap if the line goes on, and
only then. -/
theorem pairwise_statements (line : LogicalLine) (hline : line.startLine ≤ line.endLine) :
    line.statements.Pairwise fun earlier later ↦
      earlier.selection.first < later.selection.first ∧
        (earlier.selection.Meets later.selection ↔ line.startLine < line.endLine) := by
  have hspans : (line.codeSpans.takeWhile fun span ↦ !isRemark span.text).Pairwise fun span later ↦
      span.offset + byteLength span.text < later.offset :=
    (pairwise_locatePieces 0 _).sublist (List.takeWhile_sublist _)
  refine List.pairwise_map.2 (hspans.imp_of_mem fun {span later} hspan hlater hlt ↦ ?_)
  have hcolumns := length_takeBytes_lt ((List.takeWhile_sublist _).mem hspan)
    ((List.takeWhile_sublist _).mem hlater) hlt
  have hfirst : (line.place span).first < (line.place later).first := by
    refine Place.lt_iff.2 (.inr ⟨?_, ?_⟩)
    · exact (line.startLine_place span).trans (line.startLine_place later).symm
    · change (line.place span).startColumn < (line.place later).startColumn
      rw [startColumn_place, startColumn_place]
      omega
  refine ⟨hfirst, ?_⟩
  by_cases hcontinues : line.startLine < line.endLine
  · refine iff_of_true ?_ hcontinues
    have hlast : (line.place span).last = (line.place later).last := by
      have hmany : line.isSingle = false := beq_eq_false_iff_ne.2 hcontinues.ne
      simp only [place, hmany]
      rfl
    refine Selection.meets_of_last_eq hfirst.le hlast (Place.le_iff.2 (.inl ?_))
    change (line.place later).startLine < (line.place later).endLine
    rwa [startLine_place, endLine_place]
  · have hsingle : line.startLine = line.endLine := le_antisymm hline (not_lt.1 hcontinues)
    refine iff_of_false (Selection.not_meets_of_lt (Place.lt_iff.2 (.inr ⟨?_, ?_⟩))) hcontinues
    · change (line.place span).endLine = (line.place later).startLine
      rw [startLine_place, endLine_place, hsingle]
    · change (line.place span).endColumn < (line.place later).startColumn
      have hne := text_ne_nil_of_mem_codeSpans ((List.takeWhile_sublist _).mem hspan)
      rw [startColumn_place, endColumn_place_of_single hsingle hne]
      omega

end LogicalLine

/-- Reading starts where the range says if it starts on the first line of the range. -/
theorem Segment.IsReadFrom.first_eq_iff {p q : Place} (h : statement.IsReadFrom lines p q) :
    statement.selection.first = p ↔ p.line = statement.selection.startLine := by
  obtain ⟨before, hwalk, hcolumn⟩ := h.before
  constructor
  · rintro rfl
    rfl
  · intro hline
    have hread := hwalk.column_eq hline.symm
    refine Place.ext hline.symm ?_
    rw [hread, Selection.first, hcolumn]
    exact Nat.add_comm _ _

/-- On a line that does not go on, the range is what is read. -/
theorem Segment.IsReadFrom.eq_of_single {p q : Place} (h : statement.IsReadFrom lines p q)
    (hmem : statement ∈ line.statements) (hsingle : line.startLine = line.endLine) :
    statement.selection.first = p ∧
      q = ⟨statement.selection.endLine, statement.selection.endColumn + 1⟩ := by
  obtain ⟨span, hspan, rfl⟩ := List.mem_map.1 hmem
  have hne := LogicalLine.text_ne_nil_of_mem_codeSpans ((List.takeWhile_sublist _).mem hspan)
  obtain ⟨before, hbefore, -⟩ := h.before
  have hstart : line.startLine ≤ p.line := by
    rw [← line.startLine_place span]
    exact hbefore.line_le
  have hend : q.line ≤ line.startLine := by
    rw [hsingle, ← line.endLine_place span]
    exact h.endLine
  have hforth := h.text.line_le
  have hfirst : (line.place span).first = p := h.first_eq_iff.2 <| by
    change p.line = (line.place span).startLine
    rw [line.startLine_place]
    omega
  refine ⟨hfirst, Place.ext ?_ ?_⟩
  · change q.line = (line.place span).endLine
    rw [line.endLine_place]
    omega
  · change q.column = (line.place span).endColumn + 1
    have hcolumn : p.column = (takeBytes span.offset line.text).length + 1 := by
      rw [← hfirst]
      exact line.startColumn_place span
    rw [h.text.column_eq (by omega), hcolumn, line.endColumn_place_of_single hsingle hne]
    dsimp only
    omega

/-- The statements of a text are those of its logical lines. -/
theorem statementsOf_eq (source : List Char) :
    statementsOf source = (logicalLines source).flatMap (·.statements) := by
  rw [statementsOf, lineItems, List.filterMap_flatMap]
  congr 1
  funext line
  rw [LogicalLine.items, List.filterMap_append, List.filterMap_map]
  cases line.comment? <;> simp [Function.comp_def, LineItem.statement?]

/-- Each statement of a text is written in it. -/
theorem exists_isReadFrom_of_mem_statementsOf {source : List Char} (h : statement ∈ statementsOf source) :
    ∃ p q, statement.IsReadFrom (physicalLines source) p q := by
  rw [statementsOf_eq] at h
  obtain ⟨line, hline, hmem⟩ := List.mem_flatMap.1 h
  exact LogicalLine.exists_isReadFrom (isRead_of_mem_logicalLines hline) hmem

/-- The ranges of the statements of a text come in the order in which they begin, and two of them overlap
just if they belong to one line that goes on. Each statement can be read in the source, as many characters
behind the start of its line as its range says; this is where the range begins just if nothing goes on
before it. On a line that does not go on, the range is what is read. -/
theorem statement_ranges (source : List Char) :
    (statementsOf source).Pairwise (fun earlier later ↦
        earlier.selection.first < later.selection.first ∧
          (earlier.selection.Meets later.selection ↔
            earlier.selection.startLine = later.selection.startLine ∧
              earlier.selection.startLine < earlier.selection.endLine)) ∧
      ∀ statement ∈ statementsOf source, ∃ p q, statement.IsReadFrom (physicalLines source) p q ∧
        (statement.selection.first = p ↔ p.line = statement.selection.startLine) ∧
        (statement.selection.startLine = statement.selection.endLine →
          statement.selection.first = p ∧
            q = ⟨statement.selection.endLine, statement.selection.endColumn + 1⟩) := by
  rw [statementsOf_eq]
  have hordered {line : LogicalLine} (hline : line ∈ logicalLines source) :
      line.startLine ≤ line.endLine := (isRead_of_mem_logicalLines hline).line_le
  constructor
  · refine List.pairwise_flatMap.2 ⟨fun line hline ↦ ?_, ?_⟩
    · refine (line.pairwise_statements (hordered hline)).imp_of_mem fun hearlier hlater h ↦ ?_
      obtain ⟨hstart, hend⟩ := LogicalLine.lines_of_mem_statements hearlier
      rw [hstart, hend, (LogicalLine.lines_of_mem_statements hlater).1]
      exact ⟨h.1, h.2.trans (and_iff_right rfl).symm⟩
    · refine (pairwise_endLine_logicalLines source).imp_of_mem ?_
      intro line line' hline _ hlt earlier hearlier later hlater
      obtain ⟨hstart, hend⟩ := LogicalLine.lines_of_mem_statements hearlier
      have hstart' := (LogicalLine.lines_of_mem_statements hlater).1
      have hbefore : line.startLine < line'.startLine := (hordered hline).trans_lt hlt
      refine ⟨Place.lt_iff.2 (.inl ?_), iff_of_false (Selection.not_meets_of_lt
        (Place.lt_iff.2 (.inl ?_))) fun h ↦ ?_⟩
      · exact hstart.trans_lt (hbefore.trans_eq hstart'.symm)
      · exact hend.trans_lt (hlt.trans_eq hstart'.symm)
      · rw [hstart, hstart'] at h
        exact hbefore.ne h.1
  · intro statement hstatement
    obtain ⟨line, hline, hmem⟩ := List.mem_flatMap.1 hstatement
    obtain ⟨p, q, hread⟩ := LogicalLine.exists_isReadFrom (isRead_of_mem_logicalLines hline) hmem
    refine ⟨p, q, hread, hread.first_eq_iff, fun hsingle ↦ hread.eq_of_single hmem ?_⟩
    obtain ⟨hstart, hend⟩ := LogicalLine.lines_of_mem_statements hmem
    rwa [← hstart, ← hend]

/-- Two statements of a line that goes on overlap, and a statement behind the first physical line does not
begin where its range does. -/
theorem statements_of_continued_lines :
    (∃ earlier later, statementsOf "a = 1: b = _\n2\n".toList = [earlier, later] ∧
        earlier.selection.Meets later.selection) ∧
      ∃ statement ∈ statementsOf "x = _\n1: y = 2\n".toList,
        charAt (physicalLines "x = _\n1: y = 2\n".toList) statement.selection.first ≠
          statement.text.head? :=
  ⟨⟨⟨"a = 1".toList, ⟨1, 1, 2, 1⟩⟩, ⟨"b = 2".toList, ⟨1, 8, 2, 1⟩⟩, by decide +kernel,
      ⟨⟨1, 8⟩, by decide +kernel⟩⟩,
    ⟨"y = 2".toList, ⟨1, 8, 2, 8⟩⟩, by decide +kernel, by decide +kernel⟩

end VbaLint.Source
