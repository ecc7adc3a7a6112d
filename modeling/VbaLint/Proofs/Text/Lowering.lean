import Mathlib.Tactic.IntervalCases
import VbaLint.Text.Caseless
import VbaLint.Text.Lowercase
import VbaLint.Text.Piece
import VbaLint.Text.WordChar

/-!
# Texts with their ASCII letters lowered

The classes of characters do not tell the cases of an ASCII letter apart. Whatever is cut from a
text by means of them is cut at the same places when its ASCII letters are lowered.
-/

namespace VbaLint.Text

/-! ## Characters -/

def capitals : List Char := "ABCDEFGHIJKLMNOPQRSTUVWXYZ".toList

theorem mem_capitals {c : Char} (hlow : 65 ≤ c.toNat) (hhigh : c.toNat ≤ 90) : c ∈ capitals := by
  rw [← Char.ofNat_toNat c]
  generalize c.toNat = point at hlow hhigh ⊢
  interval_cases point <;> decide

theorem toLower_eq_or_mem_capitals (c : Char) : c.toLower = c ∨ c ∈ capitals := by
  by_cases hcapital : c.val ≥ 'A'.val ∧ c.val ≤ 'Z'.val
  · exact .inr (mem_capitals hcapital.1 hcapital.2)
  · exact .inl (dif_neg hcapital)

/-- What is the same for each capital and its small letter depends on no ASCII case. -/
theorem caseless_of_capitals {α : Type} {f : Char → α}
    (h : (capitals.map fun c ↦ f c.toLower) = capitals.map f) (c : Char) : f c.toLower = f c := by
  rcases toLower_eq_or_mem_capitals c with hlow | hcapital
  · rw [hlow]
  · exact List.map_inj_left.1 h c hcapital

@[simp]
theorem toLower_toLower (c : Char) : c.toLower.toLower = c.toLower :=
  caseless_of_capitals (by decide) c

/-- A character that is no letter is the lowered form of itself alone. -/
theorem toLower_eq_iff {c d : Char} (hd : d.isAlpha = false) : c.toLower = d ↔ c = d := by
  rcases toLower_eq_or_mem_capitals c with hlow | hcapital
  · rw [hlow]
  · have hletters : capitals.all (fun c ↦ c.isAlpha && c.toLower.isAlpha) = true := by decide
    obtain ⟨hc, hlowered⟩ := Bool.and_eq_true_iff.1 (List.all_eq_true.1 hletters c hcapital)
    constructor <;> rintro rfl
    · rw [hd] at hlowered
      cases hlowered
    · rw [hd] at hc
      cases hc

/-- Lowering does not make another character of one that is no letter. -/
theorem toLower_beq {c d : Char} (hd : d.isAlpha = false) : (c.toLower == d) = (c == d) := by
  rw [Bool.eq_iff_iff, beq_iff_eq, beq_iff_eq, toLower_eq_iff hd]

theorem map_toLower_eq_some {c : Option Char} {d : Char} (hd : d.isAlpha = false) :
    c.map Char.toLower = some d ↔ c = some d := by
  cases c with
  | none => simp
  | some c => simp [toLower_eq_iff hd]

theorem map_toLower_beq_some {c : Option Char} {d : Char} (hd : d.isAlpha = false) :
    (c.map Char.toLower == some d) = (c == some d) := by
  rw [Bool.eq_iff_iff, beq_iff_eq, beq_iff_eq, map_toLower_eq_some hd]

@[simp]
theorem isBlank_toLower (c : Char) : isBlank c.toLower = isBlank c :=
  caseless_of_capitals (by decide) c

@[simp]
theorem isAlphanumeric_toLower (c : Char) : isAlphanumeric c.toLower = isAlphanumeric c :=
  caseless_of_capitals (by decide) c

@[simp]
theorem isDecimalDigit_toLower (c : Char) : isDecimalDigit c.toLower = isDecimalDigit c :=
  caseless_of_capitals (by decide) c

@[simp]
theorem isWordChar_toLower (c : Char) : isWordChar c.toLower = isWordChar c :=
  caseless_of_capitals (by decide) c

@[simp]
theorem isDigit_toLower (c : Char) : c.toLower.isDigit = c.isDigit :=
  caseless_of_capitals (by decide) c

@[simp]
theorem isAlpha_toLower (c : Char) : c.toLower.isAlpha = c.isAlpha :=
  caseless_of_capitals (by decide) c

@[simp]
theorem isCased_toLower (c : Char) : isCased c.toLower = isCased c :=
  caseless_of_capitals (by decide) c

@[simp]
theorem isCaseIgnorable_toLower (c : Char) : isCaseIgnorable c.toLower = isCaseIgnorable c :=
  caseless_of_capitals (by decide) c

@[simp]
theorem lowercaseChar_toLower (c : Char) : lowercaseChar c.toLower = lowercaseChar c :=
  caseless_of_capitals (by decide) c

theorem spells_toLower (letter c : Char) : spells letter c.toLower = spells letter c := by
  rw [spells, spells, toLower_toLower, toLower_beq (show ('ſ').isAlpha = false by decide),
    toLower_beq (show ('\u212A').isAlpha = false by decide)]

/-! ## Texts -/

section

variable (text : List Char)

@[simp]
theorem lowerAscii_nil : lowerAscii [] = [] := rfl

@[simp]
theorem lowerAscii_cons (c : Char) : lowerAscii (c :: text) = c.toLower :: lowerAscii text := rfl

@[simp]
theorem lowerAscii_append (more : List Char) :
    lowerAscii (text ++ more) = lowerAscii text ++ lowerAscii more := List.map_append

@[simp]
theorem length_lowerAscii : (lowerAscii text).length = text.length := List.length_map _

/-- Lowering does not change the number of bytes. -/
theorem utf8Size_toLower (c : Char) : c.toLower.utf8Size = c.utf8Size := caseless_of_capitals (by decide) c

@[simp]
theorem byteLength_lowerAscii : byteLength (lowerAscii text) = byteLength text := by
  induction text with
  | nil => rfl
  | cons c text ih => rw [lowerAscii_cons, byteLength_cons, byteLength_cons, utf8Size_toLower, ih]

@[simp]
theorem takeBytes_lowerAscii (count : Nat) :
    takeBytes count (lowerAscii text) = lowerAscii (takeBytes count text) := by
  induction text generalizing count with
  | nil => rfl
  | cons c text ih =>
    rw [lowerAscii_cons, takeBytes, takeBytes, utf8Size_toLower, ih]
    split <;> rfl

@[simp]
theorem lowerAscii_lowerAscii : lowerAscii (lowerAscii text) = lowerAscii text := by
  simp [lowerAscii]

@[simp]
theorem lowerAscii_eq_nil : lowerAscii text = [] ↔ text = [] := List.map_eq_nil_iff

@[simp]
theorem isEmpty_lowerAscii : (lowerAscii text).isEmpty = text.isEmpty := List.isEmpty_map

@[simp]
theorem head?_lowerAscii : (lowerAscii text).head? = text.head?.map Char.toLower := List.head?_map

@[simp]
theorem getLast?_lowerAscii : (lowerAscii text).getLast? = text.getLast?.map Char.toLower :=
  List.getLast?_map

@[simp]
theorem getLastD_lowerAscii (c : Char) :
    (lowerAscii text).getLastD c.toLower = (text.getLastD c).toLower := by
  simp [List.getLastD_eq_getLast?]

@[simp]
theorem tail_lowerAscii : (lowerAscii text).tail = lowerAscii text.tail := List.map_tail.symm

theorem take_lowerAscii (count : Nat) :
    (lowerAscii text).take count = lowerAscii (text.take count) := List.map_take.symm

theorem drop_lowerAscii (count : Nat) :
    (lowerAscii text).drop count = lowerAscii (text.drop count) := List.map_drop.symm

theorem reverse_lowerAscii : (lowerAscii text).reverse = lowerAscii text.reverse :=
  List.map_reverse.symm

theorem dropLast_lowerAscii : (lowerAscii text).dropLast = lowerAscii text.dropLast :=
  List.map_dropLast.symm

variable {p : Char → Bool} (hp : ∀ c, p c.toLower = p c)
include hp

theorem takeWhile_lowerAscii : (lowerAscii text).takeWhile p = lowerAscii (text.takeWhile p) := by
  rw [lowerAscii, List.takeWhile_map, show p ∘ Char.toLower = p from funext hp, lowerAscii]

theorem dropWhile_lowerAscii : (lowerAscii text).dropWhile p = lowerAscii (text.dropWhile p) := by
  rw [lowerAscii, List.dropWhile_map, show p ∘ Char.toLower = p from funext hp, lowerAscii]

theorem dropEndWhile_lowerAscii :
    dropEndWhile p (lowerAscii text) = lowerAscii (dropEndWhile p text) := by
  simp only [dropEndWhile, reverse_lowerAscii, dropWhile_lowerAscii _ hp]

theorem all_lowerAscii : (lowerAscii text).all p = text.all p := by
  rw [lowerAscii, List.all_map, show p ∘ Char.toLower = p from funext hp]

theorem any_lowerAscii : (lowerAscii text).any p = text.any p := by
  rw [lowerAscii, List.any_map, show p ∘ Char.toLower = p from funext hp]

end

theorem contains_lowerAscii (text : List Char) {d : Char} (hd : d.isAlpha = false) :
    (lowerAscii text).contains d = text.contains d := by
  rw [List.contains_eq_any_beq, List.contains_eq_any_beq]
  apply any_lowerAscii
  intro c
  rw [BEq.comm, toLower_beq hd, BEq.comm]

/-- A text without letters is the lowered form of itself alone. -/
theorem lowerAscii_eq_iff {text word : List Char} (hword : word.all (!·.isAlpha) = true) :
    lowerAscii text = word ↔ text = word := by
  induction word generalizing text with
  | nil => simp
  | cons d word ih =>
    rw [List.all_cons, Bool.and_eq_true, Bool.not_eq_true'] at hword
    cases text with
    | nil => simp
    | cons c text => simp [toLower_eq_iff hword.1, ih hword.2]

theorem isPrefixOf_lowerAscii {word : List Char} (hword : word.all (!·.isAlpha) = true)
    (text : List Char) : word.isPrefixOf (lowerAscii text) = word.isPrefixOf text := by
  induction word generalizing text with
  | nil => rfl
  | cons d word ih =>
    rw [List.all_cons, Bool.and_eq_true, Bool.not_eq_true'] at hword
    cases text with
    | nil => rfl
    | cons c text =>
      rw [lowerAscii_cons, List.isPrefixOf, List.isPrefixOf, ih hword.2]
      congr 1
      rw [Bool.eq_iff_iff, beq_iff_eq, beq_iff_eq, eq_comm, toLower_eq_iff hword.1, eq_comm]

/-- A suffix without letters is found in any case. -/
theorem isSuffixOf_lowerAscii {word : List Char} (hword : word.all (!·.isAlpha) = true)
    (text : List Char) : word.isSuffixOf (lowerAscii text) = word.isSuffixOf text := by
  rw [List.isSuffixOf, reverse_lowerAscii, isPrefixOf_lowerAscii (by rwa [List.all_reverse])]
  rfl

theorem consPiece_lowerAscii (c : Char) (pieces : List (List Char)) :
    consPiece c.toLower (pieces.map lowerAscii) = (consPiece c pieces).map lowerAscii := by
  cases pieces <;> rfl

/-! ## Blanks -/

section

variable (text : List Char)

@[simp]
theorem trimStart_lowerAscii : trimStart (lowerAscii text) = lowerAscii (trimStart text) :=
  dropWhile_lowerAscii text isBlank_toLower

@[simp]
theorem trimEnd_lowerAscii : trimEnd (lowerAscii text) = lowerAscii (trimEnd text) :=
  dropEndWhile_lowerAscii text isBlank_toLower

@[simp]
theorem trim_lowerAscii : trim (lowerAscii text) = lowerAscii (trim text) := by simp [trim]

theorem words_of_blank {c : Char} (h : isBlank c = true) (text : List Char) :
    words (c :: text) = words text := if_pos h

theorem words_singleton {c : Char} (h : isBlank c = false) : words [c] = [[c]] :=
  if_neg (Bool.eq_false_iff.1 h)

theorem words_of_end {c d : Char} (h : isBlank c = false) (hend : isBlank d = true)
    (text : List Char) : words (c :: d :: text) = [c] :: words (d :: text) := by
  have hword : words (c :: d :: text) = _ := if_neg (Bool.eq_false_iff.1 h)
  rw [hword]
  exact if_pos hend

theorem words_of_word {c d : Char} (h : isBlank c = false) (hword : isBlank d = false)
    (text : List Char) : words (c :: d :: text) = consPiece c (words (d :: text)) := by
  have hfirst : words (c :: d :: text) = _ := if_neg (Bool.eq_false_iff.1 h)
  rw [hfirst]
  refine (if_neg (Bool.eq_false_iff.1 hword)).trans ?_
  cases words (d :: text) <;> rfl

/-- Letters in any case make up the same words. -/
theorem words_lowerAscii : words (lowerAscii text) = (words text).map lowerAscii := by
  induction text with
  | nil => rfl
  | cons c rest ih =>
    have hlowered := isBlank_toLower c
    cases hblank : isBlank c with
    | true =>
      rw [lowerAscii_cons, words_of_blank (hlowered.trans hblank), words_of_blank hblank, ih]
    | false =>
      cases rest with
      | nil =>
        rw [lowerAscii_cons, lowerAscii_nil, words_singleton (hlowered.trans hblank),
          words_singleton hblank]
        rfl
      | cons d rest =>
        rw [lowerAscii_cons, lowerAscii_cons]
        cases hend : isBlank d with
        | true =>
          rw [words_of_end (hlowered.trans hblank) ((isBlank_toLower d).trans hend),
            words_of_end hblank hend, ← lowerAscii_cons, ih]
          rfl
        | false =>
          rw [words_of_word (hlowered.trans hblank) ((isBlank_toLower d).trans hend),
            words_of_word hblank hend, ← lowerAscii_cons, ih, consPiece_lowerAscii]

end

/-! ## Strings -/

section

variable (text other : String)

@[simp]
theorem toList_lowerAsciiString : (lowerAsciiString text).toList = lowerAscii text.toList :=
  String.toList_ofList

@[simp]
theorem lowerAsciiString_ofList (text : List Char) :
    lowerAsciiString (String.ofList text) = String.ofList (lowerAscii text) := by
  rw [lowerAsciiString, String.toList_ofList]

@[simp]
theorem lowerAsciiString_lowerAsciiString :
    lowerAsciiString (lowerAsciiString text) = lowerAsciiString text := by
  rw [lowerAsciiString, toList_lowerAsciiString, lowerAscii_lowerAscii, lowerAsciiString]

theorem lowerAsciiString_append :
    lowerAsciiString (text ++ other) = lowerAsciiString text ++ lowerAsciiString other := by
  rw [lowerAsciiString, String.toList_append, lowerAscii_append, String.ofList_append]
  rfl

theorem trimString_lowerAsciiString :
    trimString (lowerAsciiString text) = lowerAsciiString (trimString text) := by
  rw [trimString, toList_lowerAsciiString, trim_lowerAscii, trimString, lowerAsciiString_ofList]

@[simp]
theorem sameIgnoringCase_lowerAscii_left (left right : List Char) :
    sameIgnoringCase (lowerAscii left) right = sameIgnoringCase left right := by
  rw [sameIgnoringCase, lowerAscii_lowerAscii, sameIgnoringCase]

@[simp]
theorem sameIgnoringCase_lowerAscii_right (left right : List Char) :
    sameIgnoringCase left (lowerAscii right) = sameIgnoringCase left right := by
  rw [sameIgnoringCase, lowerAscii_lowerAscii, sameIgnoringCase]

@[simp]
theorem sameName_lowerAsciiString_left :
    sameName (lowerAsciiString text) other = sameName text other := by
  rw [sameName, toList_lowerAsciiString, sameIgnoringCase_lowerAscii_left, sameName]

/-- Names that are lowered to one text are the same name. -/
theorem sameName_of_lowerAsciiString_eq {left right : String}
    (h : lowerAsciiString left = lowerAsciiString right) : sameName left right = true := by
  have htext := congrArg String.toList h
  rw [toList_lowerAsciiString, toList_lowerAsciiString] at htext
  exact beq_iff_eq.2 htext

theorem meetsCased_lowerAscii (text : List Char) :
    meetsCased (lowerAscii text) = meetsCased text := by
  rw [meetsCased, dropWhile_lowerAscii _ isCaseIgnorable_toLower, meetsCased]
  cases text.dropWhile isCaseIgnorable with
  | nil => rfl
  | cons c rest => exact isCased_toLower c

theorem lowercaseAfter_lowerAscii (before text : List Char) :
    lowercaseAfter (lowerAscii before) (lowerAscii text) = lowercaseAfter before text := by
  induction text generalizing before with
  | nil => rfl
  | cons c rest ih =>
    simp only [lowerAscii_cons, lowercaseAfter, meetsCased_lowerAscii, lowercaseChar_toLower,
      toLower_eq_iff (show ('Σ').isAlpha = false by decide)]
    rw [← lowerAscii_cons, ih]

/-- Full lowercasing does not tell the cases of an ASCII letter apart either. -/
@[simp]
theorem lowercase_lowerAsciiString : lowercase (lowerAsciiString text) = lowercase text := by
  rw [lowercase, toList_lowerAsciiString, ← lowerAscii_nil, lowercaseAfter_lowerAscii, lowercase]

end

/-! ## Pieces -/

def Span.lowered (span : Span) : Span := { span with text := lowerAscii span.text }

@[simp]
theorem text_lowered (span : Span) : span.lowered.text = lowerAscii span.text := rfl

@[simp]
theorem offset_lowered (span : Span) : span.lowered.offset = span.offset := rfl

/-- Pieces are located alike in any case. -/
theorem locatePieces_lowerAscii (offset : Nat) (pieces : List (List Char)) :
    locatePieces offset (pieces.map lowerAscii) =
      (locatePieces offset pieces).map Span.lowered := by
  induction pieces generalizing offset with
  | nil => rfl
  | cons piece rest ih =>
    simp only [List.map_cons, locatePieces, trim_lowerAscii, lowerAscii_eq_nil, byteLength_lowerAscii,
      takeWhile_lowerAscii piece isBlank_toLower, ih]
    split <;> rfl

end VbaLint.Text
