import VbaLint.Text.Piece
import VbaLint.Text.Search

/-!
# Where spans stand

A span splits the text that it is taken from into what stands before it, its own text and what stands
behind it. The trimmed pieces of a text that is cut at separators stand between blanks and separators, in
the order of their offsets. A text that occurs in another is found where it occurs first.
-/

namespace VbaLint.Text

/-! ## Trimming -/

/-- Only blanks are trimmed at the end. -/
theorem exists_append_trimEnd (text : List Char) :
    ∃ blanks, text = trimEnd text ++ blanks ∧ ∀ c ∈ blanks, isBlank c = true := by
  refine ⟨(text.reverse.takeWhile isBlank).reverse, ?_, fun c hc ↦ ?_⟩
  · rw [trimEnd, dropEndWhile, ← List.reverse_append, List.takeWhile_append_dropWhile,
      List.reverse_reverse]
  · exact List.all_eq_true.1 List.all_takeWhile c (List.mem_reverse.1 hc)

theorem trimEnd_isPrefix (text : List Char) : trimEnd text <+: text := by
  obtain ⟨blanks, htext, -⟩ := exists_append_trimEnd text
  exact ⟨blanks, htext.symm⟩

theorem takeWhile_append_trimStart (text : List Char) :
    text.takeWhile isBlank ++ trimStart text = text := List.takeWhile_append_dropWhile

theorem isBlank_of_mem_takeWhile {text : List Char} {c : Char} (h : c ∈ text.takeWhile isBlank) :
    isBlank c = true := List.all_eq_true.1 List.all_takeWhile c h

theorem not_isBlank_of_head_trimStart {text : List Char} {c : Char}
    (h : (trimStart text).head? = some c) : isBlank c = false := by
  have hhead := List.head?_dropWhile_not isBlank text
  rw [trimStart] at h
  rw [h] at hhead
  simpa using hhead

/-- What is left of a text after trimming begins with a character that is no blank. -/
theorem not_isBlank_of_head_trim {text : List Char} {c : Char} (h : (trim text).head? = some c) :
    isBlank c = false := by
  obtain ⟨blanks, htext, -⟩ := exists_append_trimEnd (trimStart text)
  have hhead : (trimStart text).head? = some c := by
    rw [htext, ← trim, List.head?_append, h, Option.some_or]
  exact not_isBlank_of_head_trimStart hhead

/-- What is left of a text after trimming ends with a character that is no blank. -/
theorem not_isBlank_of_getLast_trimEnd {text : List Char} {c : Char}
    (h : (trimEnd text).getLast? = some c) : isBlank c = false := by
  rw [trimEnd, dropEndWhile, List.getLast?_reverse] at h
  exact not_isBlank_of_head_trimStart h

/-! ## Places -/

theorem byteLength_lt_of_length_lt {text front longer : List Char} (h : front <+: text)
    (h' : longer <+: text) (hlt : front.length < longer.length) :
    byteLength front < byteLength longer := by
  obtain ⟨gap, rfl⟩ := List.prefix_of_prefix_length_le h h' (Nat.le_of_lt hlt)
  have hgap : gap ≠ [] := by
    rintro rfl
    rw [List.append_nil] at hlt
    exact Nat.lt_irrefl _ hlt
  have hpos := byteLength_pos gap hgap
  rw [byteLength_append]
  omega

/-- Of two beginnings of a text the one with fewer characters is the one with fewer bytes. -/
theorem byteLength_lt_iff {text front longer : List Char} (h : front <+: text) (h' : longer <+: text) :
    byteLength front < byteLength longer ↔ front.length < longer.length := by
  refine ⟨fun hlt ↦ Nat.not_le.1 fun hle ↦ ?_, byteLength_lt_of_length_lt h h'⟩
  obtain ⟨gap, rfl⟩ := List.prefix_of_prefix_length_le h' h hle
  rw [byteLength_append] at hlt
  omega

/-- Of two beginnings of a text the one with no more bytes begins the other. -/
theorem prefix_of_byteLength_le {text front longer : List Char} (h : front <+: text)
    (h' : longer <+: text) (hle : byteLength front ≤ byteLength longer) : front <+: longer := by
  refine List.prefix_of_prefix_length_le h h' (Nat.not_lt.1 fun hlt ↦ ?_)
  exact Nat.not_lt.2 hle (byteLength_lt_of_length_lt h' h hlt)

/-! ## Spans -/

namespace Span

/-- The text is cut into what stands before the span, the span, and what stands behind it. -/
structure Splits (span : Span) (text before behind : List Char) : Prop where
  text_eq : text = before ++ span.text ++ behind
  offset_eq : span.offset = byteLength before

namespace Splits

variable {span later : Span} {text before behind before' behind' : List Char}

/-- What stands before the span is found at its offset. -/
theorem takeBytes_eq (h : span.Splits text before behind) : takeBytes span.offset text = before := by
  rw [h.offset_eq, h.text_eq, List.append_assoc, takeBytes_append]

theorem prefix_text (h : span.Splits text before behind) : before ++ span.text <+: text :=
  ⟨behind, h.text_eq.symm⟩

theorem prefix_before (h : span.Splits text before behind) : before <+: text :=
  (List.prefix_append _ _).trans h.prefix_text

/-- Spans that follow one another in bytes do so in characters. -/
theorem length_lt (h : span.Splits text before behind) (h' : later.Splits text before' behind')
    (hlt : span.offset + byteLength span.text < later.offset) :
    before.length + span.text.length < before'.length := by
  rw [h.offset_eq, h'.offset_eq, ← byteLength_append, byteLength_lt_iff h.prefix_text h'.prefix_before,
    List.length_append] at hlt
  exact hlt

end Splits

end Span

/-! ## Searching -/

/-- A text that occurs is found where it occurs first. -/
theorem exists_offsetOf?_eq {text before part behind : List Char} (h : text = before ++ part ++ behind) :
    ∃ front rest, offsetOf? part text = some (byteLength front) ∧ text = front ++ part ++ rest ∧
      byteLength front ≤ byteLength before := by
  induction text generalizing before with
  | nil =>
    obtain ⟨rfl, rfl, rfl⟩ : before = [] ∧ part = [] ∧ behind = [] := by simpa using h.symm
    exact ⟨[], [], rfl, rfl, Nat.le_refl 0⟩
  | cons c text ih =>
    rw [offsetOf?]
    split
    · next hfirst =>
      obtain ⟨rest, hrest⟩ := List.isPrefixOf_iff_prefix.1 hfirst
      exact ⟨[], rest, rfl, hrest.symm, Nat.zero_le _⟩
    · next hlater =>
      cases before with
      | nil => exact absurd (List.isPrefixOf_iff_prefix.2 ⟨behind, h.symm⟩) hlater
      | cons d before =>
        obtain ⟨rfl, htext⟩ := List.cons_eq_cons.1 h
        obtain ⟨front, rest, hfound, hsplit, hle⟩ := ih htext
        exact ⟨c :: front, rest, by rw [hfound]; rfl, by rw [hsplit]; rfl,
          Nat.add_le_add_left hle _⟩

/-- The first occurrence of a part is not behind any other. -/
theorem offsetOf_le {text before part behind : List Char} (h : text = before ++ part ++ behind) :
    offsetOf part text ≤ byteLength before := by
  obtain ⟨front, rest, hfound, -, hle⟩ := exists_offsetOf?_eq h
  rw [offsetOf, hfound]
  exact hle

/-- A part is found where it stands for the first time. -/
theorem exists_append_offsetOf {text before part behind : List Char}
    (h : text = before ++ part ++ behind) :
    ∃ front rest, text = front ++ part ++ rest ∧ offsetOf part text = byteLength front := by
  obtain ⟨front, rest, hfound, hsplit, -⟩ := exists_offsetOf?_eq h
  exact ⟨front, rest, hsplit, by rw [offsetOf, hfound, Option.getD_some]⟩

/-- A text is found at its own front. -/
theorem offsetOf_self (text : List Char) : offsetOf text text = 0 := by
  have hwhole : text = [] ++ text ++ [] := (List.append_nil text).symm
  exact Nat.le_zero.1 (offsetOf_le hwhole)

/-! ## Pieces -/

/-- The pieces are what the text leaves when it is cut at some characters of one byte that satisfy `p`. -/
inductive CutAt (p : Char → Prop) : List Char → List (List Char) → Prop
  | last (piece : List Char) : CutAt p piece [piece]
  | cons (piece : List Char) {c : Char} (hc : p c) (hone : c.utf8Size = 1) {rest : List Char}
      {pieces : List (List Char)} (hrest : CutAt p rest pieces) :
      CutAt p (piece ++ c :: rest) (piece :: pieces)

variable {p : Char → Prop} {text : List Char} {pieces : List (List Char)} {span : Span} {offset : Nat}

/-- A character put in front of the first piece cuts nothing. -/
theorem CutAt.consPiece (c : Char) (h : CutAt p text pieces) :
    CutAt p (c :: text) (consPiece c pieces) := by
  cases h with
  | last => exact .last (c :: _)
  | cons piece hc hone hrest => exact .cons (c :: piece) hc hone hrest

/-- Only blanks are trimmed at both ends. -/
theorem exists_append_trim (piece : List Char) :
    ∃ blanks, piece = piece.takeWhile isBlank ++ trim piece ++ blanks ∧
      ∀ c ∈ blanks, isBlank c = true := by
  obtain ⟨blanks, htext, hblanks⟩ := exists_append_trimEnd (trimStart piece)
  refine ⟨blanks, ?_, hblanks⟩
  rw [List.append_assoc, trim, ← htext, takeWhile_append_trimStart]

/-- A piece is located behind its blanks, and the others behind it and a separator. -/
theorem mem_locatePieces_cons {piece : List Char} : span ∈ locatePieces offset (piece :: pieces) ↔
    (trim piece ≠ [] ∧ span = ⟨trim piece, offset + byteLength (piece.takeWhile isBlank)⟩) ∨
      span ∈ locatePieces (offset + byteLength piece + 1) pieces := by
  rw [locatePieces]
  split <;> simp [*]

/-- Every span that is located is what is left of a piece without its blanks. -/
theorem exists_piece_of_mem_locatePieces (hspan : span ∈ locatePieces offset pieces) :
    ∃ piece ∈ pieces, span.text = trim piece ∧ trim piece ≠ [] := by
  induction pieces generalizing offset with
  | nil => cases hspan
  | cons piece rest ih =>
    rcases mem_locatePieces_cons.1 hspan with ⟨hne, rfl⟩ | hlater
    · exact ⟨piece, List.mem_cons_self, rfl, hne⟩
    · obtain ⟨later, hmem, hlater⟩ := ih hlater
      exact ⟨later, List.mem_cons_of_mem _ hmem, hlater⟩

theorem le_offset_of_mem_locatePieces (hspan : span ∈ locatePieces offset pieces) :
    offset ≤ span.offset := by
  induction pieces generalizing offset with
  | nil => cases hspan
  | cons piece rest ih =>
    rcases mem_locatePieces_cons.1 hspan with ⟨-, rfl⟩ | hlater
    · exact Nat.le_add_right _ _
    · have := ih hlater
      omega

/-- Each span ends before the next one begins. -/
theorem pairwise_locatePieces (offset : Nat) (pieces : List (List Char)) :
    (locatePieces offset pieces).Pairwise fun span later ↦
      span.offset + byteLength span.text < later.offset := by
  induction pieces generalizing offset with
  | nil => exact .nil
  | cons piece rest ih =>
    rw [locatePieces]
    split
    · exact ih _
    · refine List.pairwise_cons.2 ⟨fun later hlater ↦ ?_, ih _⟩
      obtain ⟨blanks, hpiece, -⟩ := exists_append_trim piece
      have hlength := congrArg byteLength hpiece
      have := le_offset_of_mem_locatePieces hlater
      rw [byteLength_append, byteLength_append] at hlength
      dsimp only
      omega

/-- A span stands in the text between blanks and characters at which the text is cut. -/
theorem exists_splits_of_mem_locatePieces (h : CutAt p text pieces)
    (hspan : span ∈ locatePieces offset pieces) :
    ∃ before behind, text = before ++ span.text ++ behind ∧ span.offset = offset + byteLength before ∧
      (∀ c ∈ before.getLast?, isBlank c = true ∨ p c) ∧
        ∀ c ∈ behind.head?, isBlank c = true ∨ p c := by
  induction h generalizing offset with
  | last piece =>
    rcases mem_locatePieces_cons.1 hspan with ⟨-, rfl⟩ | hlater
    · obtain ⟨blanks, hpiece, hblanks⟩ := exists_append_trim piece
      refine ⟨_, blanks, hpiece, rfl, fun c hc ↦ .inl ?_, fun c hc ↦ .inl ?_⟩
      · exact isBlank_of_mem_takeWhile (List.mem_of_getLast? hc)
      · exact hblanks c (List.mem_of_head? hc)
    · cases hlater
  | @cons piece c hc hone rest pieces hrest ih =>
    rcases mem_locatePieces_cons.1 hspan with ⟨-, rfl⟩ | hlater
    · obtain ⟨blanks, hpiece, hblanks⟩ := exists_append_trim piece
      refine ⟨_, blanks ++ c :: rest, ?_, rfl, fun d hd ↦ .inl ?_, fun d hd ↦ ?_⟩
      · rw [← List.append_assoc, ← hpiece]
      · exact isBlank_of_mem_takeWhile (List.mem_of_getLast? hd)
      · cases blanks with
        | nil =>
          cases hd
          exact .inr hc
        | cons e blanks =>
          cases hd
          exact .inl (hblanks _ List.mem_cons_self)
    · obtain ⟨before, behind, htext, hoffset, hbefore, hbehind⟩ := ih hlater
      refine ⟨piece ++ c :: before, behind, by simp [htext], ?_, fun d hd ↦ ?_, hbehind⟩
      · rw [hoffset, byteLength_append, byteLength_cons, hone]
        omega
      · rw [List.getLast?_append, List.getLast?_cons] at hd
        cases hlast : before.getLast? with
        | none =>
          rw [hlast] at hd
          cases hd
          exact .inr hc
        | some e =>
          rw [hlast] at hd
          cases hd
          exact hbefore _ hlast

end VbaLint.Text
