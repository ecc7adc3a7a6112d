import VbaLint.Proofs.Statement.Items
import VbaLint.Proofs.Text.Lowering
import VbaLint.Statement.Directive
import VbaLint.Statement.Shape
import VbaLint.Statement.Variable

/-!
# Forms of lowered statements

A statement with its ASCII letters lowered has the form of the statement, in which every part has
its letters lowered. Keywords, names and separators are found at the same places.
-/

namespace VbaLint.Statement

open Text Tree

/-! ## Reading from the front -/

section

variable (text : List Char)

@[simp]
theorem afterWord_lowerAscii (word : List Char) :
    afterWord word (lowerAscii text) = (afterWord word text).map lowerAscii := by
  induction word generalizing text with
  | nil => rfl
  | cons letter word ih =>
    cases text with
    | nil => rfl
    | cons c text =>
      rw [lowerAscii_cons, afterWord, afterWord, spells_toLower, ih]
      split <;> rfl

@[simp]
theorem afterBlanks_lowerAscii :
    afterBlanks (lowerAscii text) = (afterBlanks text).map lowerAscii := by
  cases text with
  | nil => rfl
  | cons c text =>
    rw [lowerAscii_cons, afterBlanks, afterBlanks, isBlank_toLower, trimStart_lowerAscii]
    split <;> rfl

@[simp]
theorem afterKeyword_lowerAscii (word : String) :
    afterKeyword word (lowerAscii text) = (afterKeyword word text).map lowerAscii := by
  rw [afterKeyword, afterWord_lowerAscii, afterKeyword]
  cases afterWord word.toList text with
  | none => rfl
  | some rest => exact afterBlanks_lowerAscii rest

@[simp]
theorem afterOneOf_lowerAscii (words : List String) :
    afterOneOf words (lowerAscii text) = (afterOneOf words text).map lowerAscii := by
  induction words with
  | nil => rfl
  | cons word rest ih =>
    simp only [afterOneOf, List.findSome?_cons, afterKeyword_lowerAscii] at ih ⊢
    rw [ih]
    cases afterKeyword word text <;> rfl

@[simp]
theorem skipOneOf_lowerAscii (words : List String) :
    skipOneOf words (lowerAscii text) = lowerAscii (skipOneOf words text) := by
  rw [skipOneOf, afterOneOf_lowerAscii, skipOneOf, Option.getD_map]

@[simp]
theorem allBlank_lowerAscii : allBlank (lowerAscii text) = allBlank text :=
  all_lowerAscii text isBlank_toLower

@[simp]
theorem isNameStart_toLower (c : Char) : isNameStart c.toLower = isNameStart c :=
  caseless_of_capitals (by decide) c

theorem takeNameWith_lowerAscii {continues : Char → Bool}
    (h : ∀ c, continues c.toLower = continues c) :
    takeNameWith continues (lowerAscii text) =
      (takeNameWith continues text).map (Prod.map lowerAscii lowerAscii) := by
  cases text with
  | nil => rfl
  | cons c text =>
    rw [lowerAscii_cons, takeNameWith, takeNameWith, isNameStart_toLower, takeWhile_lowerAscii _ h,
      dropWhile_lowerAscii _ h]
    split <;> rfl

@[simp]
theorem takeName_lowerAscii :
    takeName (lowerAscii text) = (takeName text).map (Prod.map lowerAscii lowerAscii) :=
  takeNameWith_lowerAscii text isWordChar_toLower

@[simp]
theorem takeDottedName_lowerAscii :
    takeDottedName (lowerAscii text) =
      (takeDottedName text).map (Prod.map lowerAscii lowerAscii) := by
  apply takeNameWith_lowerAscii
  intro c
  rw [isWordChar_toLower, toLower_beq (by decide)]

@[simp]
theorem isTypeSuffix_toLower (c : Char) : isTypeSuffix c.toLower = isTypeSuffix c :=
  caseless_of_capitals (by decide) c

@[simp]
theorem skipTypeSuffix_lowerAscii :
    skipTypeSuffix (lowerAscii text) = lowerAscii (skipTypeSuffix text) := by
  cases text with
  | nil => rfl
  | cons c text =>
    rw [lowerAscii_cons, skipTypeSuffix, skipTypeSuffix, isTypeSuffix_toLower]
    split <;> rfl

@[simp]
theorem spanBefore_lowerAscii (whole part rest : List Char) :
    spanBefore (lowerAscii whole) (lowerAscii part) (lowerAscii rest) =
      (spanBefore whole part rest).lowered := by
  simp [spanBefore, Span.lowered]

@[simp]
theorem plainName?_lowerAscii :
    plainName? (lowerAscii text) = (plainName? text).map lowerAscii := by
  rw [plainName?, takeName_lowerAscii, plainName?]
  cases takeName text with
  | none => rfl
  | some taken => simp [Prod.map]

end

/-! ## Items -/

theorem depthAfter_toLower (depth : Int32) (c : Char) :
    depthAfter depth c.toLower = depthAfter depth c := by
  simp only [depthAfter, toLower_eq_iff (show ('(').isAlpha = false by decide),
    toLower_eq_iff (show (')').isAlpha = false by decide)]

theorem itemPieces_lowerAscii (depth : Int32) (inString : Bool) (text : List Char) :
    itemPieces depth inString (lowerAscii text) =
      (itemPieces depth inString text).map lowerAscii := by
  induction text generalizing depth inString with
  | nil => rfl
  | cons c rest ih =>
    simp only [lowerAscii_cons, itemPieces, toLower_eq_iff (show (',').isAlpha = false by decide),
      toLower_eq_iff (show ('"').isAlpha = false by decide), depthAfter_toLower, ih]
    split
    · rfl
    · rw [consPiece_lowerAscii]

@[simp]
theorem items_lowerAscii (list : List Char) :
    items (lowerAscii list) = (items list).map Span.lowered := by
  rw [items_eq, itemPieces_lowerAscii, locatePieces_lowerAscii, items_eq]

/-! ## Words of expressions -/

@[simp]
theorem isReserved_lowerAscii (word : List Char) :
    isReserved (lowerAscii word) = isReserved word := by
  simp [isReserved]

@[simp]
theorem isIdentifierStart_toLower (c : Char) : isIdentifierStart c.toLower = isIdentifierStart c :=
  caseless_of_capitals (by decide) c

@[simp]
theorem isIdentifierChar_toLower (c : Char) : isIdentifierChar c.toLower = isIdentifierChar c :=
  caseless_of_capitals (by decide) c

@[simp]
theorem isHexDigit_toLower (c : Char) : isHexDigit c.toLower = isHexDigit c :=
  caseless_of_capitals (by decide) c

/-- Two quotes in a string stand for one and do not end it. -/
theorem afterString_cons (c : Char) (rest : List Char) :
    afterString (c :: rest) =
      if c = '"' then if rest.head? = some '"' then afterString rest.tail else rest
      else afterString rest := by
  split
  · next hquote =>
    subst hquote
    split
    · next hhead =>
      obtain ⟨tail, rfl⟩ := List.head?_eq_some_iff.1 hhead
      rfl
    · next hhead =>
      rw [afterString]
      rintro tail rfl
      exact hhead rfl
  · next hquote => rw [afterString] <;> simp [hquote]

theorem afterString_lowerAscii (text : List Char) :
    afterString (lowerAscii text) = lowerAscii (afterString text) := by
  induction hlength : text.length using Nat.strongRecOn generalizing text with
  | ind length ih =>
    cases text with
    | nil => rfl
    | cons c rest =>
      have hrest : rest.length < length := by simp [← hlength]
      have htail : rest.tail.length < length := by
        rw [List.length_tail]
        omega
      rw [lowerAscii_cons, afterString_cons, afterString_cons, head?_lowerAscii, tail_lowerAscii,
        ih _ hrest rest rfl, ih _ htail rest.tail rfl]
      simp only [toLower_eq_iff (show ('"').isAlpha = false by decide),
        map_toLower_eq_some (show ('"').isAlpha = false by decide)]
      split
      · split <;> rfl
      · rfl

theorem isRadixLiteral_lowerAscii (word : List Char) :
    isRadixLiteral (lowerAscii word) = isRadixLiteral word := by
  match word with
  | [] => rfl
  | [_] => rfl
  | marker :: c :: digits =>
    let isMarker (c : Char) : Bool := c == 'h' || c == 'H' || c == 'o' || c == 'O'
    have hmarker : isMarker marker.toLower = isMarker marker :=
      caseless_of_capitals (by decide) marker
    have hdigits := all_lowerAscii (c :: digits) isHexDigit_toLower
    exact congrArg₂ (· && ·) hmarker hdigits

theorem isReference_lowerAscii (previous : Option Char) (word : List Char) :
    isReference (previous.map Char.toLower) (lowerAscii word) = isReference previous word := by
  rw [isReference, isRadixLiteral_lowerAscii, isReserved_lowerAscii,
    map_toLower_beq_some (show ('.').isAlpha = false by decide),
    map_toLower_beq_some (show ('!').isAlpha = false by decide),
    map_toLower_beq_some (show ('&').isAlpha = false by decide), isReference]

theorem occurrencesFrom_lowerAscii (previous : Option Char) (offset : Nat) (text : List Char) :
    occurrencesFrom (previous.map Char.toLower) offset (lowerAscii text) =
      (occurrencesFrom previous offset text).map Span.lowered := by
  fun_induction occurrencesFrom previous offset text with
  | case1 => simp [occurrencesFrom]
  | case2 previous offset rest ih =>
    rw [lowerAscii_cons, show ('"').toLower = '"' by decide, occurrencesFrom, if_pos rfl,
      afterString_lowerAscii, byteLength_lowerAscii, byteLength_lowerAscii]
    exact ih
  | case3 previous offset c rest hquote hdigit number ih =>
    have hnumber : (lowerAscii rest).takeWhile (fun d ↦ isAlphanumeric d || d == '.') =
        lowerAscii number := by
      apply takeWhile_lowerAscii
      intro d
      rw [isAlphanumeric_toLower, toLower_beq (by decide)]
    rw [lowerAscii_cons, occurrencesFrom, if_neg (mt (toLower_eq_iff (by decide)).1 hquote),
      if_pos (by rwa [isDigit_toLower]), hnumber]
    dsimp only
    rw [getLastD_lowerAscii, byteLength_lowerAscii, utf8Size_toLower, length_lowerAscii, drop_lowerAscii]
    exact ih
  | case4 previous offset c rest hquote hdigit hstart word later hreference ih =>
    have hword : c.toLower :: (lowerAscii rest).takeWhile isIdentifierChar = lowerAscii word :=
      congrArg (c.toLower :: ·) (takeWhile_lowerAscii rest isIdentifierChar_toLower)
    rw [lowerAscii_cons, occurrencesFrom, if_neg (mt (toLower_eq_iff (by decide)).1 hquote),
      if_neg (by rwa [isDigit_toLower]), if_pos (by rwa [isIdentifierStart_toLower]), hword]
    dsimp only
    rw [isReference_lowerAscii, if_pos hreference, getLastD_lowerAscii, byteLength_lowerAscii,
      length_lowerAscii, drop_lowerAscii]
    exact congrArg (_ :: ·) ih
  | case5 previous offset c rest hquote hdigit hstart word later hreference ih =>
    have hword : c.toLower :: (lowerAscii rest).takeWhile isIdentifierChar = lowerAscii word :=
      congrArg (c.toLower :: ·) (takeWhile_lowerAscii rest isIdentifierChar_toLower)
    rw [lowerAscii_cons, occurrencesFrom, if_neg (mt (toLower_eq_iff (by decide)).1 hquote),
      if_neg (by rwa [isDigit_toLower]), if_pos (by rwa [isIdentifierStart_toLower]), hword]
    dsimp only
    rw [isReference_lowerAscii, if_neg hreference, getLastD_lowerAscii, byteLength_lowerAscii,
      length_lowerAscii, drop_lowerAscii]
    exact ih
  | case6 previous offset c rest hquote hdigit hstart ih =>
    rw [lowerAscii_cons, occurrencesFrom, if_neg (mt (toLower_eq_iff (by decide)).1 hquote),
      if_neg (by rwa [isDigit_toLower]), if_neg (by rwa [isIdentifierStart_toLower]),
      utf8Size_toLower]
    exact ih

@[simp]
theorem occurrences_lowerAscii (expression : List Char) :
    occurrences (lowerAscii expression) = (occurrences expression).map Span.lowered :=
  occurrencesFrom_lowerAscii none 0 expression

end VbaLint.Statement
