import VbaLint.Proofs.Text.Literals
import VbaLint.Proofs.Text.Weaving
import VbaLint.Source.Segment

/-!
# Separators and the marks of comments

An apostrophe outside string literals is the mark of a comment. A colon outside them separates statements,
unless an equals sign follows. So the statements that the separators leave begin outside literals, and they
have no further separators.
-/

namespace VbaLint.Source

open Text

variable {text piece before front behind blanks : List Char} {span : Span} {inString : Bool} {c : Char}

/-- The code before a comment has apostrophes in literals only. -/
theorem literalAfter_of_apostrophe (h : (splitComment inString text).1 = front ++ '\'' :: behind) :
    literalAfter inString front = true := by
  induction text generalizing inString front with
  | nil => cases front <;> cases h
  | cons c rest ih =>
    rw [splitComment] at h
    split at h
    · cases front <;> cases h
    · next hmark =>
      cases front with
      | nil =>
        obtain ⟨rfl, -⟩ := List.cons_eq_cons.1 h
        rw [literalAfter_nil]
        simpa using hmark
      | cons d front =>
        obtain ⟨rfl, hrest⟩ := List.cons_eq_cons.1 h
        rw [literalAfter_cons]
        exact ih hrest

/-- The mark of a comment stands outside literals. -/
theorem literalAfter_code (h : (splitComment inString text).2 ≠ []) :
    literalAfter inString (splitComment inString text).1 = false := by
  induction text generalizing inString with
  | nil => exact absurd rfl h
  | cons c rest ih =>
    rw [splitComment] at h ⊢
    split at h
    · next hmark =>
      rw [if_pos hmark, literalAfter_nil]
      simpa using (Bool.and_eq_true_iff.1 hmark).2
    · next hmark =>
      rw [if_neg hmark, literalAfter_cons]
      exact ih h

/-- The character between the two texts separates statements. -/
def IsSeparator (front : List Char) (c : Char) (behind : List Char) : Prop :=
  c = ':' ∧ ¬InLiteral front ∧ behind.head? ≠ some '='

/-- A separator stays one when the text ends earlier. -/
theorem IsSeparator.of_append (more : List Char) (h : IsSeparator front c (behind ++ more)) :
    IsSeparator front c behind := by
  refine ⟨h.1, h.2.1, fun hhead ↦ h.2.2 ?_⟩
  rw [List.head?_append, hhead, Option.some_or]

/-- The text is cut at separators. -/
theorem cutWhere_statementPieces (front text : List Char) :
    CutWhere IsSeparator front text (statementPieces (literalAfter false front) text) := by
  induction text generalizing front with
  | nil => exact .last front []
  | cons c rest ih =>
    have hnext := ih (front ++ [c])
    rw [literalAfter_concat] at hnext
    rw [statementPieces]
    split
    · next hcut =>
      simp only [Bool.and_eq_true, decide_eq_true_eq, Bool.not_eq_true', bne_iff_ne] at hcut
      obtain ⟨⟨rfl, houtside⟩, hequals⟩ := hcut
      change CutWhere IsSeparator front ([] ++ ':' :: rest) ([] :: _)
      apply CutWhere.cons
      · rw [List.append_nil]
        exact ⟨rfl, not_inLiteral_iff.2 houtside, hequals⟩
      · rfl
      · rwa [List.append_nil]
    · exact hnext.consPiece

/-- All colons of a text that begins in a literal or not stand in literals or before equals signs. -/
def IsUncut (inString : Bool) (text : List Char) : Prop :=
  ∀ ⦃front behind⦄, text = front ++ ':' :: behind →
    literalAfter inString front = true ∨ behind.head? = some '='

theorem isUncut_nil : IsUncut inString [] := by
  rintro (_ | _) behind htext <;> cases htext

/-- A text stays uncut with a character in front that does not separate. -/
theorem IsUncut.cons (h : IsUncut (if c = '"' then !inString else inString) text)
    (hc : c = ':' → inString = true ∨ text.head? = some '=') : IsUncut inString (c :: text) := by
  rintro (_ | ⟨d, front⟩) behind htext
  · obtain ⟨rfl, rfl⟩ := List.cons_eq_cons.1 htext
    rw [literalAfter_nil]
    exact hc rfl
  · obtain ⟨rfl, hrest⟩ := List.cons_eq_cons.1 htext
    rw [literalAfter_cons]
    exact h hrest

/-- All separators are cut out. The first piece begins where the text does, the others begin outside
literals. -/
theorem exists_isUncut_statementPieces (inString : Bool) (text : List Char) :
    ∃ first later, statementPieces inString text = first :: later ∧ IsUncut inString first ∧
      (text.head? = some '=' → first.head? = some '=') ∧ ∀ piece ∈ later, IsUncut false piece := by
  induction text generalizing inString with
  | nil => exact ⟨[], [], rfl, isUncut_nil, nofun, nofun⟩
  | cons c rest ih =>
    rw [statementPieces]
    split
    · next hcut =>
      simp only [Bool.and_eq_true, decide_eq_true_eq, Bool.not_eq_true', bne_iff_ne] at hcut
      obtain ⟨⟨rfl, rfl⟩, -⟩ := hcut
      obtain ⟨first, later, hpieces, hfirst, -, hlater⟩ := ih false
      refine ⟨[], statementPieces false rest, rfl, isUncut_nil, nofun, ?_⟩
      rw [hpieces]
      exact List.forall_mem_cons.2 ⟨hfirst, hlater⟩
    · next hkept =>
      obtain ⟨first, later, hpieces, hfirst, hhead, hlater⟩ := ih (if c = '"' then !inString else inString)
      refine ⟨c :: first, later, by rw [hpieces, consPiece], hfirst.cons fun hcolon ↦ ?_, id, hlater⟩
      simp only [hcolon, Bool.and_eq_true, decide_eq_true_eq, Bool.not_eq_true', bne_iff_ne, not_and,
        not_not, true_and] at hkept
      cases inString with
      | true => exact .inl rfl
      | false => exact .inr (hhead (hkept rfl))

/-- Trimming leaves no more separators than there were. -/
theorem IsUncut.trim (h : IsUncut false text) : IsUncut false (trim text) := by
  obtain ⟨blanks, htext, hblanks⟩ := exists_append_trim text
  have hlead : literalAfter false (text.takeWhile isBlank) = false :=
    literalAfter_of_not_mem (not_mem_of_blank (fun _ ↦ isBlank_of_mem_takeWhile) (by decide))
  intro front behind hsplit
  have hwhole : text = (text.takeWhile isBlank ++ front) ++ ':' :: (behind ++ blanks) := by
    conv_lhs => rw [htext, hsplit]
    simp only [List.append_assoc, List.cons_append]
  rcases h hwhole with hinside | hequals
  · rw [literalAfter_append, hlead] at hinside
    exact .inl hinside
  · cases behind with
    | nil => exact absurd (hblanks _ (List.mem_of_head? hequals)) (by decide)
    | cons d behind => exact .inr hequals

/-- A piece of code has no separators, and it begins outside literals. -/
theorem exists_outside_of_mem_statementPieces (h : span ∈ locatePieces 0 (statementPieces false text)) :
    IsUncut false span.text ∧ ∃ before behind, span.Splits text before behind ∧ ¬InLiteral before := by
  constructor
  · obtain ⟨piece, hpiece, htrim, -⟩ := exists_piece_of_mem_locatePieces h
    obtain ⟨first, later, hpieces, hfirst, -, hlater⟩ := exists_isUncut_statementPieces false text
    rw [hpieces] at hpiece
    rw [htrim]
    exact (List.forall_mem_cons.2 ⟨hfirst, hlater⟩ piece hpiece).trim
  · obtain ⟨start, blanks, behind, htext, hoffset, hblanks, hstart⟩ :=
      (cutWhere_statementPieces [] text).exists_begin h
    refine ⟨start ++ blanks, behind, ⟨htext, by rw [hoffset, Nat.zero_add]⟩, ?_⟩
    have hquote : '"' ∉ blanks := not_mem_of_blank hblanks (by decide)
    rw [not_inLiteral_iff, literalAfter_append, literalAfter_of_not_mem hquote]
    rcases hstart with rfl | ⟨front, c, rest, rfl, rfl, houtside, -⟩
    · exact literalAfter_nil false
    · rw [literalAfter_concat]
      exact not_inLiteral_iff.1 houtside

end VbaLint.Source
