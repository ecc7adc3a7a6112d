import VbaLint.Proofs.Source.Gathering
import VbaLint.Proofs.Source.Ranges
import VbaLint.Proofs.Source.Separators
import VbaLint.Proofs.Text.Lowering

/-!
# How a text is split

Nothing of a text is lost when it is split. Each physical line belongs to one logical line, and the text of a
logical line consists of its statements and its comment, of blanks and separating colons between them, and of
the mark of the comment. A statement has neither separators nor marks of comments outside literals.
-/

namespace VbaLint.Source

open Text

variable {source : List Char} {line : LogicalLine} {statement : Segment}

/-- The text has no outer blanks, and outside string literals it has no mark of a comment and no colon that
separates statements. -/
structure IsStatementText (text : List Char) : Prop where
  ne_nil : text ≠ []
  head : ∀ c ∈ text.head?, isBlank c = false
  last : ∀ c ∈ text.getLast?, isBlank c = false
  apostrophe {front behind : List Char} : text = front ++ '\'' :: behind → InLiteral front
  colon {front behind : List Char} : text = front ++ ':' :: behind →
    InLiteral front ∨ behind.head? = some '='

/-- The statement stands in the text of the line where its range begins, and it begins outside literals. -/
def Segment.StandsOutside (statement : Segment) (line : LogicalLine) : Prop :=
  ∃ before behind, line.text = before ++ statement.text ++ behind ∧
    statement.selection.startColumn = before.length + 1 ∧ ¬InLiteral before

namespace LogicalLine

theorem isStatementText_of_mem_codeSpans {span : Span} (h : span ∈ line.codeSpans) :
    IsStatementText span.text := by
  obtain ⟨piece, -, hpiece, hne⟩ := exists_piece_of_mem_locatePieces h
  obtain ⟨huncut, before, behind, hsplits, houtside⟩ := exists_outside_of_mem_statementPieces h
  refine ⟨hpiece ▸ hne, fun c hc ↦ ?_, fun c hc ↦ ?_, fun {front rest} hsplit ↦ ?_,
    fun {front rest} hsplit ↦ ?_⟩
  · rw [hpiece] at hc
    exact not_isBlank_of_head_trim hc
  · rw [hpiece] at hc
    exact not_isBlank_of_getLast_trimEnd hc
  · have hcode : (splitComment false line.text).1 = (before ++ front) ++ '\'' :: (rest ++ behind) := by
      rw [hsplits.text_eq, hsplit]
      simp only [List.append_assoc, List.cons_append]
    have hinside := literalAfter_of_apostrophe hcode
    rwa [literalAfter_append, not_inLiteral_iff.1 houtside, literalAfter_false] at hinside
  · exact (huncut hsplit).imp_left literalAfter_false.1

theorem isStatementText_of_mem_statements (h : statement ∈ line.statements) :
    IsStatementText statement.text := by
  obtain ⟨span, hkept, rfl⟩ := List.mem_map.1 h
  exact isStatementText_of_mem_codeSpans ((List.takeWhile_sublist _).mem hkept)

theorem standsOutside_of_mem_statements (h : statement ∈ line.statements) :
    statement.StandsOutside line := by
  obtain ⟨span, hkept, rfl⟩ := List.mem_map.1 h
  have hspan : span ∈ line.codeSpans := (List.takeWhile_sublist _).mem hkept
  obtain ⟨-, before, behind, hsplits, houtside⟩ := exists_outside_of_mem_statementPieces hspan
  obtain ⟨htext, -⟩ := splitComment_append false line.text
  refine ⟨before, behind ++ (splitComment false line.text).2, ?_, ?_, houtside⟩
  · dsimp only
    rw [← List.append_assoc, ← hsplits.text_eq]
    exact htext
  · dsimp only
    rw [startColumn_place, hsplits.offset_eq, htext, hsplits.text_eq, List.append_assoc,
      List.append_assoc, takeBytes_append]

theorem mem_statements_of_mem_items (h : .statement statement ∈ line.items) :
    statement ∈ line.statements := by
  rcases List.mem_append.1 h with h | h
  · obtain ⟨other, hmem, heq⟩ := List.mem_map.1 h
    cases heq
    exact hmem
  · obtain ⟨comment, -, heq⟩ := Option.map_eq_some_iff.1 (Option.mem_toList.1 h)
    cases heq

end LogicalLine

/-- The statement is what stands on the line of the given number from the first column of its range to the
last. -/
structure Segment.IsSlice (statement : Segment) (lines : List (List Char)) (number : Nat) : Prop where
  startLine_eq : statement.selection.startLine = number
  endLine_eq : statement.selection.endLine = number
  startColumn_pos : 0 < statement.selection.startColumn
  startColumn_le : statement.selection.startColumn ≤ statement.selection.endColumn
  endColumn_le : statement.selection.endColumn ≤ (lineAt lines number).length
  text_eq : statement.text = ((lineAt lines number).drop (statement.selection.startColumn - 1)).take
    (statement.selection.endColumn + 1 - statement.selection.startColumn)

theorem LogicalLine.isSlice_of_mem_statements (hline : line ∈ logicalLines source)
    (hmem : statement ∈ line.statements) (hsingle : line.startLine = line.endLine) :
    statement.IsSlice (physicalLines source) line.startLine := by
  obtain ⟨hstart, hend⟩ := lines_of_mem_statements hmem
  obtain ⟨p, q, hread⟩ := exists_isReadFrom (isRead_of_mem_logicalLines hline) hmem
  obtain ⟨rfl, rfl⟩ := hread.eq_of_single hmem hsingle
  have hsame : statement.selection.startLine = statement.selection.endLine := by
    rw [hstart, hend, hsingle]
  obtain ⟨before, -, hcolumn⟩ := hread.before
  obtain ⟨c, hhead, -⟩ := hread.begins
  have hpos : 0 < statement.text.length := List.length_pos_of_mem (List.mem_of_head? hhead)
  have hprefix := hread.text.isPrefix_drop hsame
  have hlength : statement.selection.endColumn + 1 =
      statement.selection.startColumn + statement.text.length := hread.text.column_eq hsame
  have hle := hprefix.length_le
  dsimp only [Selection.first] at hprefix hle
  rw [hstart] at hprefix hle
  rw [List.length_drop] at hle
  refine ⟨hstart, hend.trans hsingle.symm, by omega, by omega, by omega, ?_⟩
  rw [hlength, Nat.add_sub_cancel_left]
  exact List.prefix_iff_eq_take.1 hprefix

/-- The mark of a comment: an apostrophe, or `Rem` with any capitals. -/
def IsMark (mark : List Char) : Prop := mark = ['\''] ∨ lowerAscii mark = "rem".toList

namespace LogicalLine

/-- The items of the line are statements and perhaps a comment. The statements are woven into the code, with
which the line begins, and the mark and the text of the comment stand behind it. -/
structure IsCutInto (line : LogicalLine) (spans : List Span) (comment : Option Segment)
    (code mark body : List Char) : Prop where
  text_eq : line.text = code ++ mark ++ body
  items_eq : line.items = (spans.map fun span ↦ ⟨span.text, line.place span⟩).map .statement ++
    (comment.map .comment).toList
  woven : IsWoven IsSeparator spans code
  uncommented : comment = none → mark = [] ∧ body = []
  commented {segment : Segment} : comment = some segment →
    IsMark mark ∧ ¬InLiteral code ∧ segment.text = trim body ∧
      segment.selection.startColumn = code.length + 1

/-- A comment takes what stands behind its mark. -/
theorem isCutInto_of_comment? {spans : List Span} {code mark body : List Char}
    (htext : line.text = code ++ mark ++ body)
    (hstatements : line.statements = spans.map fun span ↦ ⟨span.text, line.place span⟩)
    (hwoven : IsWoven IsSeparator spans code) (hmark : IsMark mark) (hcode : ¬InLiteral code)
    (hcomment : line.comment? = some
      ⟨trim (line.text.drop (takeBytes (byteLength code + byteLength mark) line.text).length),
        ⟨line.startLine, (takeBytes (byteLength code) line.text).length + 1, line.endLine,
          line.endColumn⟩⟩) :
    line.IsCutInto spans line.comment? code mark body := by
  refine ⟨htext, ?_, hwoven, fun hnone ↦ ?_, fun {segment} hsome ↦ ?_⟩
  · rw [items, hstatements]
  · rw [hcomment] at hnone
    cases hnone
  · have hcolumn : takeBytes (byteLength code) line.text = code := by
      rw [htext, List.append_assoc, takeBytes_append]
    rw [hcomment, hcolumn, htext, ← byteLength_append, takeBytes_append, List.drop_left] at hsome
    cases hsome
    exact ⟨hmark, hcode, rfl, rfl⟩

/-- A remark begins with the word that marks it. -/
theorem exists_append_of_isRemark {text : List Char} (h : isRemark text = true) :
    ∃ mark rest, text = mark ++ rest ∧ byteLength mark = 3 ∧ lowerAscii mark = "rem".toList := by
  have hprefix : "rem".toList <+: lowerAscii text := by
    rcases Bool.or_eq_true_iff.1 h with h | h
    · rcases Bool.or_eq_true_iff.1 h with h | h
      · exact ⟨[], by rw [eq_of_beq h, List.append_nil]⟩
      · exact .trans ⟨[' '], rfl⟩ (List.isPrefixOf_iff_prefix.1 h)
    · exact .trans ⟨['\t'], rfl⟩ (List.isPrefixOf_iff_prefix.1 h)
  obtain ⟨lowered, hlowered⟩ := hprefix
  obtain ⟨mark, rest, htext, hmark, -⟩ := List.map_eq_append_iff.1 hlowered.symm
  refine ⟨mark, rest, htext, ?_, hmark⟩
  rw [← byteLength_lowerAscii, lowerAscii, hmark]
  rfl

/-- The pieces of code before the first remark. -/
def keptSpans (line : LogicalLine) : List Span := line.codeSpans.takeWhile fun span ↦ !isRemark span.text

/-- The pieces of code from the first remark on. -/
def remarks (line : LogicalLine) : List Span := line.codeSpans.dropWhile fun span ↦ !isRemark span.text

theorem codeSpans_eq (line : LogicalLine) : line.codeSpans = line.keptSpans ++ line.remarks :=
  List.takeWhile_append_dropWhile.symm

theorem isWoven_codeSpans (line : LogicalLine) :
    IsWoven IsSeparator (line.keptSpans ++ line.remarks) (splitComment false line.text).1 :=
  line.codeSpans_eq ▸ (cutWhere_statementPieces [] _).isWoven

/-- A line without remarks is cut at the apostrophe that is the mark of a comment, if there is one. -/
theorem exists_isCutInto_of_no_remark (hremarks : line.remarks = []) :
    ∃ code mark body, line.IsCutInto line.keptSpans line.comment? code mark body := by
  have hwoven := line.isWoven_codeSpans
  have hclosed : (splitComment false line.text).2 ≠ [] →
      literalAfter false (splitComment false line.text).1 = false := literalAfter_code
  obtain ⟨htext, hmark⟩ := splitComment_append false line.text
  rw [hremarks, List.append_nil] at hwoven
  cases hpair : splitComment false line.text with | mk code comment
  rw [hpair] at hwoven hclosed htext hmark
  cases comment with
  | nil =>
    have hnone : line.comment? = none := by rw [comment?, ← remarks, hremarks, hpair]
    refine ⟨code, [], [], ?_, rfl, hwoven, fun _ ↦ ⟨rfl, rfl⟩, fun hsome ↦ ?_⟩
    · rw [List.append_nil]
      exact htext
    · rw [hnone] at hsome
      cases hsome
  | cons c body =>
    obtain rfl : c = '\'' := hmark c rfl
    refine ⟨code, ['\''], body, isCutInto_of_comment? ?_ rfl hwoven (.inl rfl) ?_ ?_⟩
    · rw [htext, List.append_assoc, List.singleton_append]
    · exact not_inLiteral_iff.2 (hclosed (List.cons_ne_nil _ _))
    · rw [comment?, ← remarks, hremarks, hpair]
      rfl

/-- A line with remarks is cut at the first one, whether there are apostrophes behind it or not. -/
theorem exists_isCutInto_of_remark {remark : Span} {later : List Span}
    (hremarks : line.remarks = remark :: later) :
    ∃ code mark body, line.IsCutInto line.keptSpans line.comment? code mark body := by
  have hremark : isRemark remark.text = true := by
    have hhead := List.head?_dropWhile_not (fun span : Span ↦ !isRemark span.text) line.codeSpans
    rw [← remarks, hremarks] at hhead
    simpa using hhead
  have hmem : remark ∈ line.codeSpans := by
    rw [codeSpans_eq, hremarks]
    exact List.mem_append_right _ List.mem_cons_self
  have hwoven := line.isWoven_codeSpans
  rw [hremarks] at hwoven
  obtain ⟨-, code, behind, hsplits, houtside⟩ := exists_outside_of_mem_statementPieces hmem
  obtain ⟨mark, rest, hword, hlength, hrem⟩ := exists_append_of_isRemark hremark
  obtain ⟨htext, -⟩ := splitComment_append false line.text
  refine ⟨code, mark, rest ++ behind ++ (splitComment false line.text).2,
    isCutInto_of_comment? ?_ rfl (hwoven.upTo .of_append hsplits) (.inr hrem) houtside ?_⟩
  · conv_lhs => rw [htext, hsplits.text_eq, hword]
    simp only [List.append_assoc]
  · rw [comment?, ← remarks, hremarks, hlength, ← hsplits.offset_eq]

theorem exists_isCutInto (line : LogicalLine) :
    ∃ spans comment code mark body, line.IsCutInto spans comment code mark body := by
  refine ⟨line.keptSpans, line.comment?, ?_⟩
  cases hremarks : line.remarks with
  | nil => exact exists_isCutInto_of_no_remark hremarks
  | cons remark later => exact exists_isCutInto_of_remark hremarks

end LogicalLine

/-- A text is split without loss. The logical lines tile the physical lines, and the statements and comments
of the text are the items of its logical lines in order. The items of a logical line are cut from its text,
each statement without outer blanks, separators and marks of comments. On a logical line that is a single
physical line a statement is the slice of this line that its range says. -/
theorem lines_are_partitioned (source : List Char) :
    Tiles 1 (physicalLines source) (logicalLines source) ∧
      (logicalLines source).flatMap (·.numbers) = List.range' 1 (physicalLines source).length ∧
      lineItems source = (logicalLines source).flatMap (·.items) ∧
      ∀ line ∈ logicalLines source, line.startLine ≤ line.endLine ∧
        (∃ spans comment code mark body, line.IsCutInto spans comment code mark body) ∧
        ∀ statement, .statement statement ∈ line.items →
          IsStatementText statement.text ∧ statement.StandsOutside line ∧
            (line.startLine = line.endLine →
              statement.IsSlice (physicalLines source) line.startLine) := by
  have htiles := tiles_logicalLines source
  refine ⟨htiles, htiles.numbers_eq, rfl, fun line hline ↦ ⟨htiles.startLine_le line hline,
    line.exists_isCutInto, fun statement hitem ↦ ?_⟩⟩
  have hmem := LogicalLine.mem_statements_of_mem_items hitem
  exact ⟨LogicalLine.isStatementText_of_mem_statements hmem,
    LogicalLine.standsOutside_of_mem_statements hmem, LogicalLine.isSlice_of_mem_statements hline hmem⟩

/-- Neither the apostrophe in a literal nor the colon of a named argument cuts, and a remark holds both. -/
example : lineItems "x = \"it's\": f a:=1: Rem b: 'c\n".toList =
    [.statement ⟨"x = \"it's\"".toList, ⟨1, 1, 1, 10⟩⟩, .statement ⟨"f a:=1".toList, ⟨1, 13, 1, 18⟩⟩,
      .comment ⟨"b: 'c".toList, ⟨1, 21, 1, 29⟩⟩] := by decide +kernel

end VbaLint.Source
