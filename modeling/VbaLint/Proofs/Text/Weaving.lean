import VbaLint.Proofs.Text.Spans

/-!
# Texts between separators

The trimmed pieces of a text that is cut at separators make up the text together with the separators and
with blanks. What stands before a character and behind it may tell whether it separates.
-/

namespace VbaLint.Text

variable {p : List Char → Char → List Char → Prop} {text piece front before behind : List Char}
  {pieces : List (List Char)} {spans later : List Span} {span : Span} {offset : Nat} {c : Char}

/-- The pieces are what a text that stands behind `front` leaves when it is cut at some separators, which
take one byte each. -/
inductive CutWhere (p : List Char → Char → List Char → Prop) :
    List Char → List Char → List (List Char) → Prop
  | last (front piece : List Char) : CutWhere p front piece [piece]
  | cons {front piece rest : List Char} {c : Char} {pieces : List (List Char)}
      (hc : p (front ++ piece) c rest) (hone : c.utf8Size = 1)
      (hrest : CutWhere p (front ++ piece ++ [c]) rest pieces) :
      CutWhere p front (piece ++ c :: rest) (piece :: pieces)

theorem CutWhere.consPiece (h : CutWhere p (front ++ [c]) text pieces) :
    CutWhere p front (c :: text) (consPiece c pieces) := by
  cases h with
  | last => exact .last front (c :: text)
  | @cons _ piece rest _ _ hc hone hrest =>
    have hfront : front ++ [c] ++ piece = front ++ c :: piece := by
      rw [List.append_assoc, List.singleton_append]
    rw [hfront] at hc hrest
    exact .cons hc hone hrest

/-- A trimmed piece stands behind blanks, and these at the beginning of the text or behind a separator. -/
theorem CutWhere.exists_begin (h : CutWhere p front text pieces)
    (hspan : span ∈ locatePieces offset pieces) :
    ∃ start blanks behind, text = start ++ blanks ++ span.text ++ behind ∧
      span.offset = offset + byteLength (start ++ blanks) ∧ (∀ c ∈ blanks, isBlank c = true) ∧
      (start = [] ∨ ∃ before c rest, start = before ++ [c] ∧ p (front ++ before) c rest) := by
  induction h generalizing offset with
  | last front piece =>
    rcases mem_locatePieces_cons.1 hspan with ⟨-, rfl⟩ | hlater
    · obtain ⟨behind, hsplit, -⟩ := exists_append_trim piece
      exact ⟨[], _, behind, hsplit, rfl, fun _ ↦ isBlank_of_mem_takeWhile, .inl rfl⟩
    · cases hlater
  | @cons front piece rest c pieces hc hone _ ih =>
    rcases mem_locatePieces_cons.1 hspan with ⟨-, rfl⟩ | hlater
    · obtain ⟨behind, hsplit, -⟩ := exists_append_trim piece
      refine ⟨[], _, behind ++ c :: rest, ?_, rfl, fun _ ↦ isBlank_of_mem_takeWhile, .inl rfl⟩
      rw [List.nil_append, ← List.append_assoc, ← hsplit]
    · obtain ⟨start, blanks, behind, rfl, hoffset, hblanks, hstart⟩ := ih hlater
      refine ⟨piece ++ c :: start, blanks, behind, ?_, ?_, hblanks, .inr ?_⟩
      · simp only [List.append_assoc, List.cons_append]
      · rw [hoffset]
        simp only [byteLength_append, byteLength_cons, hone]
        omega
      · rcases hstart with rfl | ⟨before, d, more, rfl, hd⟩
        · exact ⟨piece, c, _, rfl, hc⟩
        · refine ⟨piece ++ c :: before, d, more, ?_, ?_⟩
          · rw [List.append_assoc, List.cons_append]
          · simpa only [List.append_assoc, List.singleton_append] using hd

/-- The place is one of those that the span takes up. -/
def Span.Covers (span : Span) (place : Nat) : Prop :=
  span.offset ≤ place ∧ place < span.offset + byteLength span.text

/-- The spans stand in the text one behind the other, and all other characters of the text are blanks or
separators. -/
structure IsWoven (p : List Char → Char → List Char → Prop) (spans : List Span) (text : List Char) :
    Prop where
  splits : ∀ span ∈ spans, ∃ before behind, span.Splits text before behind
  ordered : spans.Pairwise fun span later ↦ span.offset + byteLength span.text < later.offset
  between {front : List Char} {c : Char} {behind : List Char} : text = front ++ c :: behind →
    (∀ span ∈ spans, ¬span.Covers (byteLength front)) → isBlank c = true ∨ p front c behind

/-- What is trimmed off a piece is blank. -/
theorem isBlank_of_not_covered (hpiece : piece = before ++ c :: behind)
    (h : trim piece ≠ [] →
      ¬Span.Covers ⟨trim piece, offset + byteLength (piece.takeWhile isBlank)⟩
        (offset + byteLength before)) :
    isBlank c = true := by
  have hc : piece[before.length]? = some c := by simp [hpiece]
  obtain ⟨blanks, hsplit, hblanks⟩ := exists_append_trim piece
  have hbefore : before <+: piece := ⟨_, hpiece.symm⟩
  have hupTo : piece.takeWhile isBlank ++ trim piece <+: piece := ⟨blanks, hsplit.symm⟩
  have hlength := byteLength_lt_iff hbefore hupTo
  have hlead := byteLength_lt_iff hbefore ((List.prefix_append _ _).trans hupTo)
  rw [hsplit, List.append_assoc, List.getElem?_append] at hc
  split at hc
  · exact isBlank_of_mem_takeWhile (List.mem_of_getElem? hc)
  rw [List.getElem?_append] at hc
  split at hc
  · next hinside =>
    have hne : trim piece ≠ [] := List.ne_nil_of_length_pos (Nat.zero_lt_of_lt hinside)
    rw [byteLength_append, List.length_append] at hlength
    refine absurd ⟨?_, ?_⟩ (h hne) <;> dsimp only <;> omega
  · exact hblanks c (List.mem_of_getElem? hc)

/-- Characters outside the trimmed pieces are blank, or the text is cut at them. -/
theorem CutWhere.between (h : CutWhere p front text pieces) (htext : text = before ++ c :: behind)
    (hout : ∀ span ∈ locatePieces offset pieces, ¬span.Covers (offset + byteLength before)) :
    isBlank c = true ∨ p (front ++ before) c behind := by
  have hfirst {piece : List Char} {pieces : List (List Char)} {offset place : Nat}
      (hout : ∀ span ∈ locatePieces offset (piece :: pieces), ¬span.Covers place)
      (hne : trim piece ≠ []) :
      ¬Span.Covers ⟨trim piece, offset + byteLength (piece.takeWhile isBlank)⟩ place :=
    hout _ (mem_locatePieces_cons.2 (.inl ⟨hne, rfl⟩))
  induction h generalizing offset before with
  | last => exact .inl (isBlank_of_not_covered htext (hfirst hout))
  | @cons front piece rest d pieces hd hone _ ih =>
    rcases List.append_eq_append_iff.1 htext with
      ⟨_ | ⟨_, before⟩, rfl, hrest⟩ | ⟨_ | ⟨_, more⟩, rfl, hmore⟩
    · obtain ⟨rfl, rfl⟩ := List.cons_eq_cons.1 hrest
      rw [List.append_nil]
      exact .inr hd
    · obtain ⟨rfl, hbehind⟩ := List.cons_eq_cons.1 hrest
      have hfront : front ++ (piece ++ d :: before) = front ++ piece ++ [d] ++ before := by
        simp only [List.append_assoc, List.singleton_append]
      have hplace : offset + byteLength (piece ++ d :: before) =
          offset + byteLength piece + 1 + byteLength before := by
        rw [byteLength_append, byteLength_cons, hone]
        omega
      rw [hplace] at hout
      rw [hfront]
      exact ih hbehind fun span hspan ↦ hout span (mem_locatePieces_cons.2 (.inr hspan))
    · obtain ⟨rfl, rfl⟩ := List.cons_eq_cons.1 hmore
      rw [List.append_nil] at hd
      exact .inr hd
    · obtain ⟨rfl, -⟩ := List.cons_eq_cons.1 hmore
      exact .inl (isBlank_of_not_covered rfl (hfirst hout))

/-- The spans of the pieces are woven into the text. -/
theorem CutWhere.isWoven (h : CutWhere p [] text pieces) : IsWoven p (locatePieces 0 pieces) text where
  splits span hspan := by
    obtain ⟨start, blanks, behind, htext, hoffset, -⟩ := h.exists_begin hspan
    exact ⟨start ++ blanks, behind, htext, by rw [hoffset, Nat.zero_add]⟩
  ordered := pairwise_locatePieces 0 pieces
  between {front c behind} htext hout := by
    have hout' : ∀ span ∈ locatePieces 0 pieces, ¬span.Covers (0 + byteLength front) := by
      rwa [Nat.zero_add]
    exact h.between htext hout'

/-- The spans before one of them are woven into the text before it, if a separator stays one when the end
of the text is dropped. -/
theorem IsWoven.upTo (h : IsWoven p (spans ++ span :: later) text)
    (hp : ∀ {front c behind} more, p front c (behind ++ more) → p front c behind)
    (hspan : span.Splits text before behind) : IsWoven p spans before := by
  obtain ⟨hspans, hlater, hcross⟩ := List.pairwise_append.1 h.ordered
  have htext := hspan.text_eq
  rw [List.append_assoc] at htext
  refine ⟨fun earlier hearlier ↦ ?_, hspans, fun {front c rest} hbefore hout ↦ ?_⟩
  · obtain ⟨front, rest, hsplits⟩ := h.splits earlier (List.mem_append_left _ hearlier)
    have hlt := hcross earlier hearlier span List.mem_cons_self
    have hend : byteLength (front ++ earlier.text) ≤ byteLength before := by
      rw [byteLength_append, ← hsplits.offset_eq, ← hspan.offset_eq]
      exact Nat.le_of_lt hlt
    obtain ⟨gap, hgap⟩ : front ++ earlier.text <+: before :=
      prefix_of_byteLength_le ⟨rest, hsplits.text_eq.symm⟩ ⟨_, htext.symm⟩ hend
    exact ⟨front, gap, hgap.symm, hsplits.offset_eq⟩
  · have hsplit : text = front ++ c :: (rest ++ (span.text ++ behind)) := by
      rw [htext, hbefore, List.append_assoc, List.cons_append]
    have hlt : byteLength front < span.offset := by
      have hpos := c.utf8Size_pos
      rw [hspan.offset_eq, hbefore, byteLength_append, byteLength_cons]
      omega
    refine (h.between hsplit fun other hother hcovers ↦ ?_).imp_right (hp _)
    rcases List.mem_append.1 hother with hother | hother
    · exact hout other hother hcovers
    · have hle : span.offset ≤ other.offset := by
        rcases List.mem_cons.1 hother with rfl | hother
        · exact Nat.le_refl _
        · have hlt := (List.pairwise_cons.1 hlater).1 other hother
          omega
      exact Nat.not_le.2 hlt (Nat.le_trans hle hcovers.1)

end VbaLint.Text
