import VbaLint.Proofs.Statement.Occurrences
import VbaLint.Proofs.Text.Spans
import VbaLint.Statement.Shape

/-!
# Where an assignment is cut

An assignment stands behind a lead, which is a keyword with its blanks or nothing. The sign is the
equals sign behind the target and the blanks after it. If this sign lies in no string literal, then the
words of the two sides are those of the statement; a plain assigned name is no word of a side.
-/

namespace VbaLint.Statement

open Text

/-! ## Leads -/

/-- The text spells the word, which is given in lower case. -/
def Spells (word text : List Char) : Prop :=
  List.Forall₂ (fun letter c ↦ spells letter c = true) word text

/-- What stands before the target: nothing, or a keyword and one or more blanks. -/
inductive IsLead : List Char → Prop
  | empty : IsLead []
  | keyword {word : String} {keyword blanks : List Char} (hword : word ∈ ["set", "let"])
    (spelled : Spells word.toList keyword) (hne : blanks ≠ []) (hblank : allBlank blanks = true) :
    IsLead (keyword ++ blanks)

/-- A word is found where it is spelled, in any case. -/
theorem spells_of_afterWord {word text rest : List Char} (h : afterWord word text = some rest) :
    ∃ keyword, text = keyword ++ rest ∧ Spells word keyword := by
  induction word generalizing text with
  | nil =>
    cases h
    exact ⟨[], rfl, .nil⟩
  | cons letter word ih =>
    cases text with
    | nil => cases h
    | cons c text =>
      rw [afterWord] at h
      obtain ⟨hspells, hrest⟩ := Option.ite_none_right_eq_some.1 h
      obtain ⟨keyword, rfl, hkeyword⟩ := ih hrest
      exact ⟨c :: keyword, rfl, .cons hspells hkeyword⟩

theorem blanks_of_afterBlanks {text rest : List Char} (h : afterBlanks text = some rest) :
    ∃ blanks, text = blanks ++ rest ∧ blanks ≠ [] ∧ allBlank blanks = true := by
  cases text with
  | nil => cases h
  | cons c text =>
    rw [afterBlanks] at h
    obtain ⟨hblank, hrest⟩ := Option.ite_none_right_eq_some.1 h
    cases hrest
    refine ⟨c :: text.takeWhile isBlank, ?_, List.cons_ne_nil _ _, ?_⟩
    · rw [trimStart, List.cons_append, List.takeWhile_append_dropWhile]
    · rw [allBlank, List.all_cons, hblank, Bool.true_and]
      exact List.all_takeWhile

/-- A letter of an assigning keyword is spelled by itself, its capital or the long s. -/
theorem toLower_eq_or_of_spells {letter c : Char} (hletter : letter ∈ "setl".toList)
    (h : spells letter c = true) : c.toLower = letter ∨ c = 'ſ' := by
  simp only [spells, Bool.or_eq_true, Bool.and_eq_true, beq_iff_eq] at h
  rcases h with (hlower | ⟨-, hlong⟩) | ⟨rfl, -⟩
  · exact .inl hlower
  · exact .inr hlong
  · simp at hletter

theorem letters_of_mem_keywords {word : String} (h : word ∈ ["set", "let"]) :
    (∀ letter ∈ word.toList, letter ∈ "setl".toList) ∧ word.toList ≠ [] ∧
      isReserved word.toList = true := by
  have hwords : ["set", "let"].all (fun word ↦
      word.toList.all ("setl".toList.contains ·) && !word.toList.isEmpty &&
        isReserved word.toList) = true := by decide +kernel
  have hfacts := List.all_eq_true.1 hwords word h
  simp only [Bool.and_eq_true, List.all_eq_true, List.contains_iff_mem, Bool.not_eq_true',
    List.isEmpty_eq_false_iff] at hfacts
  exact ⟨hfacts.1.1, hfacts.1.2, hfacts.2⟩

theorem isIdentifierStart_of_spells {letter c : Char} (hletter : letter ∈ "setl".toList)
    (h : spells letter c = true) : isIdentifierStart c = true := by
  have hletters : "setl".toList.all isIdentifierStart = true := by decide +kernel
  rcases toLower_eq_or_of_spells hletter h with rfl | rfl
  · rw [← isIdentifierStart_toLower]
    exact List.all_eq_true.1 hletters _ hletter
  · decide +kernel

theorem Spells.forall_isIdentifierStart {word keyword : List Char} (h : Spells word keyword)
    (hletters : ∀ letter ∈ word, letter ∈ "setl".toList) :
    ∀ c ∈ keyword, isIdentifierStart c = true := by
  induction h with
  | nil => exact fun _ hc ↦ absurd hc List.not_mem_nil
  | cons hspells _ ih =>
    obtain ⟨hletter, hrest⟩ := List.forall_mem_cons.1 hletters
    exact List.forall_mem_cons.2 ⟨isIdentifierStart_of_spells hletter hspells, ih hrest⟩

/-- Without a long s the keyword is the word up to case. -/
theorem Spells.lowerAscii_eq {word keyword : List Char} (h : Spells word keyword)
    (hletters : ∀ letter ∈ word, letter ∈ "setl".toList) (hlong : 'ſ' ∉ keyword) :
    lowerAscii keyword = word := by
  induction h with
  | nil => rfl
  | cons hspells _ ih =>
    obtain ⟨hletter, hrest⟩ := List.forall_mem_cons.1 hletters
    have hne := Ne.symm (List.ne_of_not_mem_cons hlong)
    have hlower := (toLower_eq_or_of_spells hletter hspells).resolve_right hne
    rw [lowerAscii_cons, hlower, ih hrest (List.not_mem_of_not_mem_cons hlong)]

theorem not_mem_quote_of_allBlank {text : List Char} (h : allBlank text = true) : '"' ∉ text :=
  fun hmem ↦ (isSeparator_of_isBlank (List.all_eq_true.1 h _ hmem)).ne_quote rfl

namespace IsLead

variable {lead : List Char}

theorem not_mem_quote (h : IsLead lead) : '"' ∉ lead := by
  cases h with
  | empty => exact List.not_mem_nil
  | keyword hword spelled _ hblank =>
    have hstarts := spelled.forall_isIdentifierStart (letters_of_mem_keywords hword).1
    refine List.not_mem_append (fun hmem ↦ ?_) (not_mem_quote_of_allBlank hblank)
    exact ne_quote_of_isIdentifierChar
      (isIdentifierChar_of_isIdentifierStart (hstarts _ hmem)) rfl

/-- The lead is scanned alone. -/
theorem occurrences_append (h : IsLead lead) (text : List Char) :
    occurrences (lead ++ text) = occurrences lead ++ occurrencesFrom none (byteLength lead) text := by
  have hquote := h.not_mem_quote
  cases h with
  | empty => simp [occurrences, occurrencesFrom]
  | @keyword word keyword blanks hword spelled hne hblank =>
    have hclosed : ¬ EndsInString keyword :=
      not_endsInString_of_not_mem fun hmem ↦ hquote (List.mem_append_left blanks hmem)
    cases blanks with
    | nil => exact absurd rfl hne
    | cons blank blanks =>
      obtain ⟨hfirst, hrest⟩ := Bool.and_eq_true_iff.1 hblank
      rw [occurrences, occurrences, occurrencesFrom_append_blanks hclosed hblank,
        List.append_assoc, List.cons_append,
        occurrencesFrom_append (isSeparator_of_isBlank hfirst) hclosed,
        occurrencesFrom_blanks_append hrest (isQuiet_of_isBlank hfirst)]
      congr 2
      simp only [byteLength_append, byteLength_cons]
      omega

/-- A keyword without a long s is reserved. -/
theorem occurrences_eq_nil (h : IsLead lead) (hlong : 'ſ' ∉ lead) : occurrences lead = [] := by
  have hquote := h.not_mem_quote
  cases h with
  | empty => simp [occurrences, occurrencesFrom]
  | @keyword word keyword blanks hword spelled hne hblank =>
    obtain ⟨hletters, hsome, hreserved⟩ := letters_of_mem_keywords hword
    have hstarts := spelled.forall_isIdentifierStart hletters
    have hlower := spelled.lowerAscii_eq hletters
      fun hmem ↦ hlong (List.mem_append_left blanks hmem)
    have hclosed : ¬ EndsInString keyword :=
      not_endsInString_of_not_mem fun hmem ↦ hquote (List.mem_append_left blanks hmem)
    rw [occurrences, occurrencesFrom_append_blanks hclosed hblank]
    cases keyword with
    | nil => exact absurd hlower.symm hsome
    | cons c rest =>
      obtain ⟨hfirst, hrest⟩ := List.forall_mem_cons.1 hstarts
      have hend : ∀ d ∈ ([] : List Char).head?, isIdentifierChar d = false := by simp
      have hname := occurrencesFrom_name hfirst
        (fun d hd ↦ isIdentifierChar_of_isIdentifierStart (hrest d hd)) hend none 0
      have hword : isReserved (c :: rest) = true := by
        rw [← isReserved_lowerAscii, hlower, hreserved]
      rw [List.append_nil, isReference_of_isQuiet isQuiet_none, hword] at hname
      rw [hname, occurrencesFrom]
      rfl

end IsLead

/-! ## Cuts -/

/-- The assignment is the text cut at a sign: `lead` stands before the target, `gap` between the target
and the sign, and `behind` after the sign. -/
structure Assignment.IsCut (assignment : Assignment) (text lead gap behind : List Char) : Prop where
  text_eq : text = lead ++ assignment.target.text ++ gap ++ '=' :: behind
  isLead : IsLead lead
  gap_blank : allBlank gap = true
  target_offset : assignment.target.offset = byteLength lead
  value_eq : assignment.value = ⟨trimStart behind, byteLength text - byteLength (trimStart behind)⟩

theorem trimEnd_append_blanks (text : List Char) :
    ∃ blanks, text = trimEnd text ++ blanks ∧ allBlank blanks = true := by
  obtain ⟨blanks, htext, hblanks⟩ := exists_append_trimEnd text
  exact ⟨blanks, htext, List.all_eq_true.2 hblanks⟩

theorem trimStart_prepend_blanks (text : List Char) :
    ∃ blanks, text = blanks ++ trimStart text ∧ allBlank blanks = true :=
  ⟨text.takeWhile isBlank, List.takeWhile_append_dropWhile.symm, List.all_takeWhile⟩

theorem append_of_splitAtEquals {text before behind : List Char}
    (h : splitAtEquals text = some (before, behind)) : text = before ++ '=' :: behind := by
  induction text generalizing before with
  | nil => cases h
  | cons c rest ih =>
    rw [splitAtEquals] at h
    split at h
    · next hsign =>
      cases h
      rw [Bool.and_eq_true, decide_eq_true_eq] at hsign
      rw [hsign.1]
      rfl
    · obtain ⟨parts, hparts, heq⟩ := Option.map_eq_some_iff.1 h
      cases heq
      rw [ih hparts]
      rfl

/-- An assignment with a keyword is a cut behind the keyword. -/
theorem exists_isCut_of_keywordAssignment? {word : String} (hword : word ∈ ["set", "let"])
    {text : List Char} {assignment : Assignment}
    (h : keywordAssignment? word text = some assignment) :
    ∃ lead gap behind, assignment.IsCut text lead gap behind := by
  unfold keywordAssignment? at h
  simp only [bind, Option.bind_eq_some_iff] at h
  obtain ⟨spaced, hspaced, body, hbody, h⟩ := h
  obtain ⟨keyword, rfl, spelled⟩ := spells_of_afterWord hspaced
  obtain ⟨blanks, rfl, hne, hblank⟩ := blanks_of_afterBlanks hbody
  cases body with
  | nil => cases h
  | cons first rest =>
    dsimp only at h
    cases hsplit : splitAtEquals rest with
    | some parts =>
      obtain ⟨before, behind⟩ := parts
      rw [hsplit] at h
      cases h
      obtain ⟨gap, hgap, hgapBlank⟩ := trimEnd_append_blanks (first :: before)
      refine ⟨keyword ++ blanks, gap, behind, ?_, .keyword hword spelled hne hblank, hgapBlank,
        ?_, rfl⟩
      · change _ = keyword ++ blanks ++ trimEnd (first :: before) ++ gap ++ '=' :: behind
        rw [append_of_splitAtEquals hsplit, List.append_assoc _ _ gap, ← hgap]
        simp
      · simp only [assignTo, byteLength_append]
        omega
    | none =>
      rw [hsplit] at h
      obtain ⟨hcond, heq⟩ := Option.ite_none_right_eq_some.1 h
      cases heq
      simp only [Bool.and_eq_true, decide_eq_true_eq, List.length_append, List.length_cons] at hcond
      obtain ⟨⟨rfl, -⟩, hlong⟩ := hcond
      -- The sign is the first character behind the blanks, the last of which is the target.
      obtain ⟨front, last, rfl⟩ : ∃ front last, blanks = front ++ [last] :=
        ⟨_, _, (List.dropLast_concat_getLast hne).symm⟩
      have hfront : front ≠ [] := by
        rintro rfl
        simp only [List.nil_append, List.length_singleton] at hlong
        omega
      rw [allBlank, List.all_append, Bool.and_eq_true] at hblank
      have htarget : ((front ++ [last] ++ '=' :: rest).drop
          ((front ++ [last] ++ '=' :: rest).length - ('=' :: rest).length - 1)).take 1 = [last] := by
        have hplace : (front ++ [last] ++ '=' :: rest).length - ('=' :: rest).length - 1 =
            front.length := by
          simp only [List.length_append, List.length_cons, List.length_nil]
          omega
        rw [hplace, List.append_assoc, List.drop_left]
        rfl
      refine ⟨keyword ++ front, [], rest, ?_, .keyword hword spelled hfront hblank.1, rfl, ?_, rfl⟩
      · rw [assignTo, htarget]
        simp
      · rw [assignTo, htarget]
        simp only [byteLength_append]
        omega

/-- A name is taken from the front of the text. -/
theorem append_of_takeNameWith {continues : Char → Bool} {text name rest : List Char}
    (h : takeNameWith continues text = some (name, rest)) : text = name ++ rest := by
  cases text with
  | nil => cases h
  | cons c text =>
    rw [takeNameWith] at h
    obtain ⟨-, heq⟩ := Option.ite_none_right_eq_some.1 h
    cases heq
    rw [List.cons_append, List.takeWhile_append_dropWhile]

/-- At most one type suffix is skipped. -/
theorem exists_append_skipTypeSuffix (text : List Char) :
    ∃ suffix, text = suffix ++ skipTypeSuffix text ∧
      (suffix = [] ∨ ∃ c, suffix = [c] ∧ isTypeSuffix c = true) := by
  cases text with
  | nil => exact ⟨[], rfl, .inl rfl⟩
  | cons c text =>
    rw [skipTypeSuffix]
    split
    · next hsuffix => exact ⟨[c], rfl, .inr ⟨c, rfl, hsuffix⟩⟩
    · exact ⟨[], rfl, .inl rfl⟩

/-- A target ends where blanks and the sign follow. -/
theorem append_of_takeTarget {text target behind : List Char}
    (h : takeTarget text = some (target, behind)) :
    ∃ gap, text = target ++ gap ++ '=' :: behind ∧ allBlank gap = true := by
  unfold takeTarget at h
  simp only [bind, Option.bind_eq_some_iff] at h
  obtain ⟨⟨name, named⟩, hname, h⟩ := h
  obtain ⟨suffix, hsuffix, -⟩ := exists_append_skipTypeSuffix named
  have htext := append_of_takeNameWith hname
  generalize skipTypeSuffix named = rest at h hsuffix
  generalize hindex : (if rest.head? = some '(' then trimEnd (rest.takeWhile (· != '=')) else []) =
    index at h
  have hprefix : index <+: rest := by
    rw [← hindex]
    split
    · exact (trimEnd_isPrefix _).trans (List.takeWhile_prefix _)
    · exact List.nil_prefix
  obtain ⟨tail, rfl⟩ := hprefix
  obtain ⟨gap, htail, hgap⟩ := trimStart_prepend_blanks tail
  obtain ⟨-, h⟩ := Option.ite_none_left_eq_some.1 h
  rw [List.drop_left] at h
  split at h
  · next hsign =>
    cases h
    rw [hsign] at htail
    refine ⟨gap, ?_, hgap⟩
    have hlength : text.length - (index ++ tail).length + index.length =
        (name ++ suffix ++ index).length := by
      rw [htext, hsuffix]
      simp only [List.length_append]
      omega
    have hwhole : text = name ++ suffix ++ index ++ tail := by
      rw [htext, hsuffix]
      simp
    rw [hlength, hwhole, List.take_left, List.append_assoc _ gap, ← htail]
  · cases h

/-- An assignment without keyword is a cut with nothing before the target. -/
theorem exists_isCut_of_plainAssignment? {text : List Char} {assignment : Assignment}
    (h : plainAssignment? text = some assignment) :
    ∃ lead gap behind, assignment.IsCut text lead gap behind := by
  unfold plainAssignment? at h
  simp only [bind, Option.bind_eq_some_iff] at h
  obtain ⟨⟨target, behind⟩, htarget, h⟩ := h
  obtain ⟨-, heq⟩ := Option.ite_none_left_eq_some.1 h
  cases heq
  obtain ⟨gap, htext, hgap⟩ := append_of_takeTarget htarget
  exact ⟨[], gap, behind, htext, .empty, hgap, rfl, rfl⟩

/-- The statement assigns, with or without a keyword. -/
def Shape.assignment? : Shape → Option Assignment
  | .setAssignment assignment | .letAssignment assignment => some assignment
  | _ => none

/-- Every assigning statement is cut at a sign. -/
theorem exists_isCut_of_shapeOf {text : List Char} {assignment : Assignment}
    (h : (shapeOf text).assignment? = some assignment) :
    ∃ lead gap behind, assignment.IsCut text lead gap behind := by
  unfold shapeOf at h
  repeat' split at h
  all_goals cases h
  · next hset => exact exists_isCut_of_keywordAssignment? (by simp) hset
  · next hlet => exact exists_isCut_of_keywordAssignment? (by simp) hlet
  · next hplain => exact exists_isCut_of_plainAssignment? hplain

/-! ## Plain names -/

theorem isIdentifierStart_of_isNameStart {c : Char} (h : isNameStart c = true) :
    isIdentifierStart c = true := by
  rw [isNameStart, Bool.or_eq_true, Bool.or_eq_true] at h
  rcases h with (hletter | hiota) | hunderscore
  · simp [isIdentifierStart, isAlphabetic, hletter]
  · have hvowel : inRanges otherAlphabeticRanges c = true := by
      rw [inRanges, eq_of_beq hiota]
      decide
    simp [isIdentifierStart, isAlphabetic, hvowel]
  · simp [isIdentifierStart, hunderscore]

theorem isSeparator_of_isTypeSuffix {c : Char} (h : isTypeSuffix c = true) : IsSeparator c := by
  simp only [isTypeSuffix, Bool.or_eq_true, beq_iff_eq] at h
  have hsuffixes : ['$', '%', '&', '!', '#', '@'].all (!isIdentifierChar ·) = true := by
    decide +kernel
  have hword (hmem : c ∈ ['$', '%', '&', '!', '#', '@']) : isIdentifierChar c = false := by
    simpa using List.all_eq_true.1 hsuffixes c hmem
  rcases h with ((((rfl | rfl) | rfl) | rfl) | rfl) | rfl <;>
    exact ⟨by decide, by decide, hword (by decide)⟩

/-- In a plain name without marks no word begins but the name itself. -/
theorem offset_eq_zero_of_plainName? {text name : List Char} (h : plainName? text = some name)
    (hname : ∀ c ∈ name, isIdentifierChar c = true) {word : Span}
    (hword : word ∈ occurrences text) : word.offset = 0 := by
  unfold plainName? at h
  simp only [bind, Option.bind_eq_some_iff] at h
  obtain ⟨⟨taken, rest⟩, htake, h⟩ := h
  obtain ⟨hempty, heq⟩ := Option.ite_none_right_eq_some.1 h
  cases heq
  obtain ⟨suffix, hsuffix, hcases⟩ := exists_append_skipTypeSuffix rest
  rw [hempty, List.append_nil] at hsuffix
  subst hsuffix
  have htext := append_of_takeNameWith htake
  have hstart : taken.head?.any isNameStart = true := by
    cases text with
    | nil => cases htake
    | cons c text =>
      rw [takeName, takeNameWith] at htake
      obtain ⟨hfirst, heq⟩ := Option.ite_none_right_eq_some.1 htake
      cases heq
      exact hfirst
  cases taken with
  | nil => cases hstart
  | cons c run =>
    have hseparator : ∀ d ∈ rest.head?, IsSeparator d := by
      rintro d hd
      rcases hcases with rfl | ⟨mark, rfl, hmark⟩
      · cases hd
      · cases hd
        exact isSeparator_of_isTypeSuffix hmark
    have hnone (previous : Option Char) (offset : Nat) :
        occurrencesFrom previous offset rest = [] := by
      rcases hcases with rfl | ⟨mark, rfl, hmark⟩
      · rw [occurrencesFrom]
      · rw [occurrencesFrom_separator (isSeparator_of_isTypeSuffix hmark), occurrencesFrom]
    rw [htext, occurrences, occurrencesFrom_name (isIdentifierStart_of_isNameStart hstart)
      (fun d hd ↦ hname d (List.mem_cons_of_mem c hd)) (fun d hd ↦ (hseparator d hd).notWord),
      hnone, List.append_nil] at hword
    split at hword
    · rw [List.mem_singleton.1 hword]
    · cases hword

/-! ## Words of the sides -/

namespace Assignment

/-- The target is a plain name, perhaps with a type suffix. -/
def hasPlainTarget (assignment : Assignment) : Bool := (plainName? assignment.target.text).isSome

def targetWords (assignment : Assignment) : List Span :=
  if assignment.hasPlainTarget then []
  else (occurrences assignment.target.text).map (Span.behind assignment.target.offset)

def valueWords (assignment : Assignment) : List Span :=
  (occurrences assignment.value.text).map (Span.behind assignment.value.offset)

def words (assignment : Assignment) : List Span := assignment.targetWords ++ assignment.valueWords

namespace IsCut

variable {assignment : Assignment} {text lead gap behind : List Char}
  (h : assignment.IsCut text lead gap behind)
include h

/-- Whether the sign lies in a string literal is a matter of the target alone. -/
theorem endsInString_iff :
    EndsInString (lead ++ assignment.target.text ++ gap) ↔ EndsInString assignment.target.text := by
  have hlead := List.count_eq_zero.2 h.isLead.not_mem_quote
  have hgap := List.count_eq_zero.2 (not_mem_quote_of_allBlank h.gap_blank)
  unfold EndsInString
  rw [List.count_append, List.count_append, hlead, hgap, Nat.zero_add, Nat.add_zero]

theorem value_offset_eq : assignment.value.offset =
    byteLength (lead ++ assignment.target.text ++ gap) + ('=').utf8Size +
      (byteLength behind - byteLength (trimStart behind)) := by
  have hle : byteLength (trimStart behind) ≤ byteLength behind := by
    obtain ⟨blanks, hsplit, -⟩ := trimStart_prepend_blanks behind
    have hsum := congrArg byteLength hsplit
    rw [byteLength_append] at hsum
    omega
  rw [h.value_eq, h.text_eq]
  simp only [byteLength_append, byteLength_cons]
  omega

/-- If the sign lies in no literal, the words of the statement are those of the lead, of the target and
of the value. -/
theorem occurrences_eq (hclosed : ¬ EndsInString assignment.target.text) :
    occurrences text = occurrences lead ++
      (occurrences assignment.target.text).map (Span.behind assignment.target.offset) ++
        assignment.valueWords := by
  have hfront : occurrences (lead ++ assignment.target.text ++ gap) = occurrences lead ++
      (occurrences assignment.target.text).map (Span.behind assignment.target.offset) := by
    rw [List.append_assoc, h.isLead.occurrences_append,
      occurrencesFrom_append_blanks hclosed h.gap_blank, occurrencesFrom_none, h.target_offset]
  have hbehind : occurrencesFrom (some '=')
      (byteLength (lead ++ assignment.target.text ++ gap) + ('=').utf8Size) behind =
        assignment.valueWords := by
    obtain ⟨blanks, hsplit, hblank⟩ := trimStart_prepend_blanks behind
    have hlength := congrArg byteLength hsplit
    rw [byteLength_append] at hlength
    conv_lhs => rw [hsplit, occurrencesFrom_blanks_append hblank isQuiet_equals,
      occurrencesFrom_none]
    rw [valueWords, h.value_offset_eq, h.value_eq, hlength, Nat.add_sub_cancel]
  have hsign := occurrencesFrom_append isSeparator_equals (mt h.endsInString_iff.1 hclosed) none 0
    behind
  rw [Nat.zero_add, hbehind] at hsign
  rw [← hfront, h.text_eq]
  exact hsign

theorem offset_lt_of_mem_lead {word : Span} (hword : word ∈ occurrences lead) :
    word.offset < assignment.target.offset := by
  have hlt := (offset_of_mem_occurrencesFrom hword).2
  rwa [Nat.zero_add, ← h.target_offset] at hlt

omit h in
theorem offset_of_mem_target {word : Span}
    (hword : word ∈ (occurrences assignment.target.text).map (Span.behind assignment.target.offset)) :
    assignment.target.offset ≤ word.offset ∧
      word.offset < assignment.target.offset + byteLength assignment.target.text := by
  rw [← occurrencesFrom_none] at hword
  exact offset_of_mem_occurrencesFrom hword

theorem le_offset_of_mem_value {word : Span} (hword : word ∈ assignment.valueWords) :
    assignment.target.offset + byteLength assignment.target.text < word.offset := by
  rw [valueWords, ← occurrencesFrom_none] at hword
  have hle := (offset_of_mem_occurrencesFrom hword).1
  have hvalue := h.value_offset_eq
  have htarget := h.target_offset
  have hpos := ('=').utf8Size_pos
  simp only [byteLength_append] at hvalue
  omega

/-- The words of an assignment whose sign lies in no literal are the words of the statement from the
target on, or behind the target if it is a plain name. -/
theorem words_eq_filter (hclosed : ¬ EndsInString assignment.target.text) :
    assignment.words = (occurrences text).filter fun word ↦
      assignment.target.offset +
        (if assignment.hasPlainTarget then byteLength assignment.target.text else 0) ≤ word.offset := by
  rw [h.occurrences_eq hclosed, List.filter_append, List.filter_append]
  have hlead : (occurrences lead).filter (fun word ↦ assignment.target.offset +
      (if assignment.hasPlainTarget then byteLength assignment.target.text else 0) ≤ word.offset) =
        [] := by
    refine List.filter_eq_nil_iff.2 fun word hword ↦ ?_
    have hlt := h.offset_lt_of_mem_lead hword
    rw [decide_eq_true_eq]
    omega
  have hvalue : assignment.valueWords.filter (fun word ↦ assignment.target.offset +
      (if assignment.hasPlainTarget then byteLength assignment.target.text else 0) ≤ word.offset) =
        assignment.valueWords := by
    refine List.filter_eq_self.2 fun word hword ↦ ?_
    have hlt := h.le_offset_of_mem_value hword
    rw [decide_eq_true_eq]
    split <;> omega
  rw [hlead, hvalue, List.nil_append, words]
  congr 1
  unfold targetWords
  symm
  split
  · refine List.filter_eq_nil_iff.2 fun word hword ↦ ?_
    have hlt := (offset_of_mem_target hword).2
    rw [decide_eq_true_eq]
    omega
  · refine List.filter_eq_self.2 fun word hword ↦ ?_
    have hle := (offset_of_mem_target hword).1
    rw [decide_eq_true_eq]
    omega

/-- If moreover the keyword is written without a long s and a plain name has no marks in it, the words
of the assignment are those of the statement but for a plain assigned name. -/
theorem words_eq_without_target (hclosed : ¬ EndsInString assignment.target.text)
    (hlong : 'ſ' ∉ lead) (hname : ∀ name, plainName? assignment.target.text = some name →
      ∀ c ∈ name, isIdentifierChar c = true) :
    assignment.words = (occurrences text).filter fun word ↦
      !(assignment.hasPlainTarget && word.offset == assignment.target.offset) := by
  rw [h.occurrences_eq hclosed, h.isLead.occurrences_eq_nil hlong, List.nil_append,
    List.filter_append]
  have hvalue : assignment.valueWords.filter (fun word ↦
      !(assignment.hasPlainTarget && word.offset == assignment.target.offset)) =
        assignment.valueWords := by
    refine List.filter_eq_self.2 fun word hword ↦ ?_
    have hlt := h.le_offset_of_mem_value hword
    have hne : (word.offset == assignment.target.offset) = false := beq_false_of_ne (by omega)
    rw [hne, Bool.and_false, Bool.not_false]
  rw [hvalue, words]
  congr 1
  unfold targetWords
  symm
  split
  · next hplain =>
    obtain ⟨name, hsome⟩ := Option.isSome_iff_exists.1 hplain
    refine List.filter_eq_nil_iff.2 fun word hword ↦ ?_
    obtain ⟨inner, hinner, rfl⟩ := List.mem_map.1 hword
    have hzero := offset_eq_zero_of_plainName? hsome (hname name hsome) hinner
    have hoffset : (inner.behind assignment.target.offset).offset = assignment.target.offset := by
      rw [Span.behind, hzero, Nat.add_zero]
    simp [hplain, hoffset]
  · next hplain =>
    refine List.filter_eq_self.2 fun word _ ↦ ?_
    rw [Bool.eq_false_iff.2 hplain, Bool.false_and, Bool.not_false]

end IsCut

end Assignment

end VbaLint.Statement
