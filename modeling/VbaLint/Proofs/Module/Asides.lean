import Mathlib.Data.List.TakeWhile
import VbaLint.Proofs.Module.FileHeaders

/-!
# Blank lines and comments

A line that holds neither a statement nor a directive leaves no trace in what is read of a text. It can be
put in between any two logical lines, and nothing changes but the numbers of the lines behind it.
-/

namespace VbaLint

open Source Statement Text Tree

namespace Source

/-- A line without statements and directives that does not continue: it is blank, or it holds a comment. -/
structure IsAside (line : List Char) : Prop where
  single : '\n' ∉ line
  closed : isContinued (trimEnd line) = false
  plain : ∀ item ∈ lineItems (line ++ ['\n']), ∃ segment,
    item = .comment segment ∧ directive? segment.text = none

theorem linesFrom_single {line : List Char} (h : '\n' ∉ line) (reversed : List Char) :
    linesFrom reversed (line ++ ['\n']) = [(withoutReturn (line.reverse ++ reversed)).reverse] := by
  induction line generalizing reversed with
  | nil => rfl
  | cons c line ih =>
    obtain ⟨hc, hline⟩ := List.ne_and_not_mem_of_not_mem_cons h
    rw [List.cons_append, linesFrom, if_neg (Ne.symm hc), ih hline, List.reverse_cons, List.append_assoc,
      List.singleton_append]

/-- A line is kept as it stands, or without the carriage return at its end. -/
theorem exists_physicalLines_single {line : List Char} (h : '\n' ∉ line) :
    ∃ kept, physicalLines (line ++ ['\n']) = [kept] ∧ (line = kept ∨ line = kept ++ ['\r']) := by
  refine ⟨_, linesFrom_single h [], ?_⟩
  rw [List.append_nil]
  unfold withoutReturn
  split
  · next reversed hreversed =>
    refine .inr ?_
    rw [← List.reverse_cons, ← hreversed, List.reverse_reverse]
  · exact .inl (List.reverse_reverse line).symm

theorem trimEnd_append_return (line : List Char) : trimEnd (line ++ ['\r']) = trimEnd line := by
  rw [trimEnd, dropEndWhile, List.reverse_append, List.reverse_singleton, List.singleton_append,
    List.dropWhile_cons_of_pos (by decide)]
  rfl

theorem trim_append_return (text : List Char) : trim (text ++ ['\r']) = trim text := by
  rw [trim, trimStart, List.dropWhile_append, trim, trimStart]
  split
  · next hnil =>
    rw [List.isEmpty_iff.1 hnil]
    rfl
  · exact trimEnd_append_return _

theorem IsAside.endsLine {line : List Char} (h : IsAside line) : EndsLine (line ++ ['\n']) where
  feed c hc := by
    rw [List.getLast?_concat] at hc
    exact (Option.some.inj hc).symm
  last kept hkept := by
    obtain ⟨only, honly, hline⟩ := exists_physicalLines_single h.single
    rw [honly] at hkept
    cases hkept
    have hclosed := h.closed
    rcases hline with rfl | rfl
    · exact hclosed
    · rwa [trimEnd_append_return] at hclosed

theorem lineItems_single {line kept : List Char} (hkept : physicalLines (line ++ ['\n']) = [kept])
    (hclosed : isContinued (trimEnd kept) = false) :
    lineItems (line ++ ['\n']) = (LogicalLine.mk kept 1 1 (trimEnd kept).length).items := by
  have htext : lineContent kept = kept := by rw [lineContent, hclosed, if_neg Bool.false_ne_true]
  have hlines : logicalLines (line ++ ['\n']) = [⟨kept, 1, 1, (trimEnd kept).length⟩] := by
    rw [logicalLines, hkept, joinLines_cons, hclosed, if_neg Bool.false_ne_true]
    change [LogicalLine.begin 1 kept] = _
    rw [LogicalLine.begin, htext]
  rw [lineItems, hlines, List.flatMap_singleton]

theorem statementPieces_of_blank {text : List Char} (h : ∀ c ∈ text, isBlank c = true) :
    statementPieces false text = [text] := by
  induction text with
  | nil => rfl
  | cons c text ih =>
    obtain ⟨hc, htext⟩ := List.forall_mem_cons.1 h
    have hcolon : c ≠ ':' := by
      rintro rfl
      cases hc
    have hquote : c ≠ '"' := by
      rintro rfl
      cases hc
    rw [statementPieces, if_neg hquote, ih htext]
    simp [hcolon, consPiece]

theorem trim_of_blank {text : List Char} (h : ∀ c ∈ text, isBlank c = true) : trim text = [] := by
  have hstart : trimStart text = [] := List.dropWhile_eq_nil_iff.2 h
  rw [trim, hstart]
  rfl

/-- Blanks stay in front of a comment, or they are all there is. -/
theorem splitComment_of_blank {blanks : List Char} (h : ∀ c ∈ blanks, isBlank c = true) (rest : List Char) :
    splitComment false (blanks ++ rest) =
      (blanks ++ (splitComment false rest).1, (splitComment false rest).2) := by
  induction blanks with
  | nil => rfl
  | cons c blanks ih =>
    obtain ⟨hc, hblanks⟩ := List.forall_mem_cons.1 h
    have hmark : c ≠ '\'' := by
      rintro rfl
      cases hc
    have hquote : c ≠ '"' := by
      rintro rfl
      cases hc
    rw [List.cons_append, splitComment, if_neg hquote, ih hblanks]
    simp [hmark]

/-- Where the code of a line is blank, its comment is all it holds. -/
theorem items_of_blank_code {line : LogicalLine} {blanks comment : List Char}
    (hsplit : splitComment false line.text = (blanks, comment)) (hblank : ∀ c ∈ blanks, isBlank c = true) :
    line.items = if comment = [] then [] else
      [.comment ⟨trim (line.text.drop (blanks.length + 1)),
        ⟨line.startLine, blanks.length + 1, line.endLine, line.endColumn⟩⟩] := by
  have hspans : line.codeSpans = [] := by
    rw [LogicalLine.codeSpans, hsplit, statementPieces_of_blank hblank, locatePieces, trim_of_blank hblank]
    rfl
  obtain ⟨htext, hmark⟩ := splitComment_append false line.text
  rw [hsplit] at htext hmark
  dsimp only at htext hmark
  rw [LogicalLine.items, LogicalLine.statements, LogicalLine.comment?, hspans, hsplit]
  cases comment with
  | nil => rfl
  | cons c rest =>
    obtain rfl : c = '\'' := hmark c rfl
    have hcolumn : takeBytes (byteLength blanks) line.text = blanks := by
      rw [htext, takeBytes_append]
    have hmarked : takeBytes (byteLength blanks + 1) line.text = blanks ++ ['\''] := by
      have hplace : byteLength blanks + 1 = byteLength (blanks ++ ['\'']) :=
        (byteLength_append blanks ['\'']).symm
      have hsplit' : blanks ++ '\'' :: rest = blanks ++ ['\''] ++ rest := by simp
      rw [htext, hplace, hsplit', takeBytes_append]
    simp [hcolumn, hmarked]

/-- A line that holds blanks and a comment without a directive, if anything. -/
theorem isAside_of_split {line kept blanks comment : List Char} (hsingle : '\n' ∉ line)
    (hkept : physicalLines (line ++ ['\n']) = [kept]) (hclosed : isContinued (trimEnd line) = false)
    (htrim : trimEnd line = trimEnd kept) (hsplit : splitComment false kept = (blanks, comment))
    (hblank : ∀ c ∈ blanks, isBlank c = true)
    (hdirective : comment ≠ [] → directive? (trim (kept.drop (blanks.length + 1))) = none) :
    IsAside line := by
  refine ⟨hsingle, hclosed, fun item hitem ↦ ?_⟩
  rw [htrim] at hclosed
  rw [lineItems_single hkept hclosed, items_of_blank_code hsplit hblank] at hitem
  split at hitem
  · cases hitem
  · next hne => exact ⟨_, List.mem_singleton.1 hitem, hdirective hne⟩

/-- A blank line is an aside. -/
theorem isAside_of_blank {line : List Char} (hsingle : '\n' ∉ line) (hblank : ∀ c ∈ line, isBlank c = true) :
    IsAside line := by
  obtain ⟨kept, hkept, hline⟩ := exists_physicalLines_single hsingle
  have hin : ∀ c ∈ kept, isBlank c = true := by
    rcases hline with rfl | rfl
    · exact hblank
    · exact fun c hc ↦ hblank c (List.mem_append_left _ hc)
  have htrim {text : List Char} (h : ∀ c ∈ text, isBlank c = true) : trimEnd text = [] := by
    have hreversed : text.reverse.dropWhile isBlank = [] :=
      List.dropWhile_eq_nil_iff.2 fun c hc ↦ h c (List.mem_reverse.1 hc)
    rw [trimEnd, dropEndWhile, hreversed]
    rfl
  have hsplit := splitComment_of_blank hin []
  rw [List.append_nil] at hsplit
  refine isAside_of_split hsingle hkept ?_ ((htrim hblank).trans (htrim hin).symm) hsplit ?_
    fun hne ↦ absurd rfl hne
  · rw [htrim hblank]
    rfl
  · simpa [splitComment] using hin

/-- A line with a comment behind an apostrophe is an aside unless it continues or the comment is a
directive. -/
theorem isAside_of_apostrophe {blanks text : List Char} (hsingle : '\n' ∉ blanks ++ '\'' :: text)
    (hblank : ∀ c ∈ blanks, isBlank c = true)
    (hclosed : isContinued (trimEnd (blanks ++ '\'' :: text)) = false)
    (hdirective : directive? (trim text) = none) : IsAside (blanks ++ '\'' :: text) := by
  have hmark (text : List Char) : splitComment false (blanks ++ '\'' :: text) = (blanks, '\'' :: text) := by
    rw [splitComment_of_blank hblank, splitComment]
    exact congrArg (·, '\'' :: text) (List.append_nil blanks)
  have hdrop (text : List Char) : (blanks ++ '\'' :: text).drop (blanks.length + 1) = text := by
    rw [List.drop_length_add_append]
    rfl
  obtain ⟨kept, hkept, hline | hline⟩ := exists_physicalLines_single hsingle
  · subst hline
    refine isAside_of_split hsingle hkept hclosed rfl (hmark text) hblank fun _ ↦ ?_
    rwa [hdrop]
  · -- The carriage return stands at the end of the comment, which is trimmed.
    rcases List.eq_nil_or_concat text with rfl | ⟨text, c, rfl⟩
    · have hlast := (List.append_inj' hline rfl).2
      cases hlast
    · rw [List.concat_eq_append] at *
      have hsame : (blanks ++ '\'' :: text) ++ [c] = kept ++ ['\r'] := by
        rw [List.append_assoc]
        exact hline
      obtain ⟨rfl, hc⟩ := List.append_inj' hsame rfl
      cases hc
      refine isAside_of_split hsingle hkept hclosed ?_ (hmark text) hblank fun _ ↦ ?_
      · rw [hline, trimEnd_append_return]
      · rwa [hdrop, ← trim_append_return]

end Source

namespace Reading

/-- Comments without directives change nothing. -/
theorem foldl_item_of_plain {items : List LineItem}
    (hplain : ∀ item ∈ items, ∃ segment, item = .comment segment ∧ directive? segment.text = none)
    (reading : Reading) : items.foldl Reading.item reading = reading := by
  induction items with
  | nil => rfl
  | cons item rest ih =>
    obtain ⟨hitem, hrest⟩ := List.forall_mem_cons.1 hplain
    obtain ⟨segment, rfl, hdirective⟩ := hitem
    have hsame : reading.item (.comment segment) = reading := by
      rw [Reading.item, Reading.comment, hdirective]
    rw [List.foldl_cons, hsame, ih hrest]

/-- Where the items of two texts agree but for asides and for what stands behind them further down, the texts
are read in the same way. -/
theorem movesTo_of_items (component : String) {left right : List Char} {insertion : Insertion}
    {front middle later : List LineItem} (hleft : lineItems left = front ++ later)
    (hright : lineItems right = front ++ middle ++ later.map (·.moved insertion))
    (hfront : front.map (·.moved insertion) = front)
    (hmiddle : ∀ item ∈ middle, ∃ segment, item = .comment segment ∧ directive? segment.text = none) :
    ((lineItems left).foldl Reading.item (start component left)).MovesTo insertion
      ((lineItems right).foldl Reading.item (start component right)) := by
  have hcounted : ∀ item ∈ front ++ later, item.segment.selection.IsCounted := by
    rw [← hleft]
    exact fun item ↦ isCounted_of_mem_lineItems
  obtain ⟨hbefore, hbehind⟩ := List.forall_mem_append.1 hcounted
  have hmeasured := follows_measured.foldl_item (measured_start component left) front
      fun segment hsegment ↦ by
    obtain ⟨item, hitem, hstatement⟩ := List.mem_filterMap.1 hsegment
    have hplaced := (hbefore item hitem).isPlaced
    cases item with
    | statement => cases hstatement; exact hplaced
    | comment => cases hstatement
  have hmoves := (movesTo_start insertion component left right).foldl_item (measured_start component left)
    front hbefore fun _ _ ↦ rfl
  rw [hfront] at hmoves
  have hheader : (front.foldl Reading.item (start component left)).header =
      (front.foldl Reading.item (start component right)).header :=
    congrArg Openings.header (((holds_start component left).openings_foldl_item front).trans
      ((holds_start component right).openings_foldl_item front).symm)
  rw [hleft, hright, List.foldl_append, List.foldl_append, List.foldl_append, foldl_item_of_plain hmiddle]
  exact hmoves.foldl_item hmeasured later hbehind fun statement _ ↦ by rw [hheader]

end Reading

/-- The lines of a text behind which an aside is put in. -/
def asideBehind (before : String) : Insertion := ⟨(physicalLines before.toList).length, 1⟩

/-- An aside leaves the tree and the annotations of a text as they are, but that the lines behind it move. -/
theorem readModule_aside (component : String) {before line : String} (hbefore : EndsLine before.toList)
    (hline : IsAside line.toList) (behind : String) :
    (readModule component (before ++ behind)).tree.MovesTo (asideBehind before)
        (readModule component (before ++ line ++ "\n" ++ behind)).tree ∧
      (readModule component (before ++ line ++ "\n" ++ behind)).annotations =
        (readModule component (before ++ behind)).annotations.map (·.moved (asideBehind before)) := by
  have hcount : (physicalLines (line.toList ++ ['\n'])).length = 1 := by
    obtain ⟨kept, hkept, -⟩ := exists_physicalLines_single hline.single
    rw [hkept, List.length_singleton]
  have htext : (before ++ line ++ "\n" ++ behind).toList =
      before.toList ++ ((line.toList ++ ['\n']) ++ behind.toList) := by
    simp only [String.toList_append, List.append_assoc]
    rfl
  obtain ⟨later, hplain, hfull, hfront⟩ := hbefore.lineItems_insert hline.endsLine behind.toList
  rw [hcount] at hfull hfront
  rw [← htext] at hfull
  rw [← String.toList_append] at hplain
  have hmoves := Reading.movesTo_of_items component hplain hfull hfront ?_
  · exact ⟨hmoves.tree, hmoves.annotations⟩
  · intro item hitem
    obtain ⟨item, hin, rfl⟩ := List.mem_map.1 hitem
    obtain ⟨segment, rfl, hdirective⟩ := hline.plain item hin
    exact ⟨_, rfl, hdirective⟩

end VbaLint
