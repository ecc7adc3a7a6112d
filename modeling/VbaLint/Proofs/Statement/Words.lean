import VbaLint.Proofs.Statement.Names

/-!
# Whole words

A word stands in a text apart from other words if neither the character before it nor the one behind it is
a letter, a digit or an underscore. A scan takes whole words but for one case: a number ends before an
underscore, so that a word may begin directly behind it.
-/

namespace VbaLint.Statement

open Text

variable {c : Char} {text rest before behind : List Char} {word : Span}

/-! ## Characters of words -/

/-- A letter, a digit or an underscore. -/
def isWordPart (c : Char) : Bool := isAlphabetic c || isDecimalDigit c || c == '_'

theorem isWordChar_of_isWordPart (h : isWordPart c = true) : isWordChar c = true := by
  rw [isWordPart, Bool.or_eq_true, Bool.or_eq_true] at h
  rcases h with (halphabetic | hdigit) | hunderscore
  · simp [isWordChar, halphabetic]
  · simp [isWordChar, hdigit]
  · rw [eq_of_beq hunderscore]
    decide +kernel

theorem isIdentifierChar_of_isWordPart (h : isWordPart c = true) : isIdentifierChar c = true := by
  rw [isWordPart, Bool.or_eq_true, Bool.or_eq_true] at h
  rcases h with (halphabetic | hdigit) | hunderscore
  · simp [isIdentifierChar, isAlphanumeric, halphabetic]
  · simp [isIdentifierChar, isAlphanumeric, isNumeric, hdigit]
  · simp [isIdentifierChar, hunderscore]

theorem not_isWordPart_of_isIdentifierChar (h : isIdentifierChar c = false) : isWordPart c = false := by
  rw [← Bool.not_eq_true] at h ⊢
  exact fun hpart ↦ h (isIdentifierChar_of_isWordPart hpart)

theorem not_isWordPart_of_isBlank (h : isBlank c = true) : isWordPart c = false :=
  not_isWordPart_of_isIdentifierChar (isSeparator_of_isBlank h).notWord

/-- A separator of code is no part of a word. -/
theorem not_isWordPart_of_mem (h : c ∈ ['"', ',', '(', ')', '=', ':', '\'']) : isWordPart c = false := by
  have hmarks : ['"', ',', '(', ')', '=', ':', '\''].all (!isWordPart ·) = true := by decide +kernel
  simpa using List.all_eq_true.1 hmarks c h

/-! ## Ends of words -/

/-- No word goes on behind the text. -/
def EndsApart (text : List Char) : Prop := ∀ c ∈ text.getLast?, isWordPart c = false

/-- No word goes on at the front of the text. -/
def BeginsApart (text : List Char) : Prop := ∀ c ∈ text.head?, isWordPart c = false

/-- The text ends with a digit and what goes on with it as a number: letters, digits and dots. -/
def EndsInNumber (text : List Char) : Prop :=
  ∃ front digit number, text = front ++ digit :: number ∧ isDecimalDigit digit = true ∧
    ∀ c ∈ number, isAlphanumeric c = true ∨ c = '.'

theorem endsApart_nil : EndsApart [] := nofun

theorem beginsApart_nil : BeginsApart [] := nofun

/-- No word goes on behind a text that ends with another character. -/
theorem endsApart_concat (h : isWordPart c = false) (text : List Char) : EndsApart (text ++ [c]) := by
  intro d hd
  rw [List.getLast?_concat] at hd
  cases hd
  exact h

/-- A text ends apart if its end does. -/
theorem EndsApart.append (h : EndsApart text) (hmore : EndsApart rest) : EndsApart (text ++ rest) := by
  intro c hc
  rw [List.getLast?_append] at hc
  rcases Option.or_eq_some_iff.1 hc with hlast | ⟨-, hlast⟩
  · exact hmore c hlast
  · exact h c hlast

/-- Of two parts the second decides how they end, unless it is empty. -/
theorem EndsApart.append_of_ne_nil (hne : rest ≠ []) (hmore : EndsApart rest) (text : List Char) :
    EndsApart (text ++ rest) := by
  intro c hc
  rw [List.getLast?_append] at hc
  rcases Option.or_eq_some_iff.1 hc with hlast | ⟨hnone, -⟩
  · exact hmore c hlast
  · exact absurd (List.getLast?_eq_none_iff.1 hnone) hne

theorem BeginsApart.append (h : BeginsApart text) (hmore : BeginsApart rest) :
    BeginsApart (text ++ rest) := by
  intro c hc
  rw [List.head?_append] at hc
  rcases Option.or_eq_some_iff.1 hc with hhead | ⟨-, hhead⟩
  · exact h c hhead
  · exact hmore c hhead

/-- No word goes on behind blanks. -/
theorem endsApart_of_allBlank (h : allBlank text = true) : EndsApart text := fun _ hc ↦
  not_isWordPart_of_isBlank (List.all_eq_true.1 h _ (List.mem_of_getLast? hc))

theorem beginsApart_of_allBlank (h : allBlank text = true) : BeginsApart text := fun _ hc ↦
  not_isWordPart_of_isBlank (List.all_eq_true.1 h _ (List.mem_of_head? hc))

theorem beginsApart_cons (h : isWordPart c = false) (text : List Char) : BeginsApart (c :: text) := by
  rintro _ ⟨⟩
  exact h

/-- Behind the longest run of such characters no word goes on if all parts of words are such characters. -/
theorem beginsApart_dropWhile {p : Char → Bool} (hp : ∀ c, isWordPart c = true → p c = true)
    (text : List Char) : BeginsApart (text.dropWhile p) := by
  intro c hc
  have hnot := List.head?_dropWhile_not p text
  rw [hc] at hnot
  rw [← Bool.not_eq_true]
  intro hpart
  simp [hp c hpart] at hnot

/-- A text ends in a number if its end does. -/
theorem EndsInNumber.append (h : EndsInNumber rest) (text : List Char) : EndsInNumber (text ++ rest) := by
  obtain ⟨front, digit, number, rfl, hdigit, hnumber⟩ := h
  exact ⟨text ++ front, digit, number, (List.append_assoc ..).symm, hdigit, hnumber⟩

/-! ## Words of a scan -/

theorem isDecimalDigit_of_isDigit (h : c.isDigit = true) : isDecimalDigit c = true := by
  have hpoints : ∀ point ∈ List.range' 48 10, isDecimalDigit (Char.ofNat point) = true := by
    decide +kernel
  have hmem : c.toNat ∈ List.range' 48 10 := by
    simp only [Char.isDigit, Bool.and_eq_true, decide_eq_true_eq] at h
    rw [List.mem_range'_1]
    exact ⟨h.1, Nat.lt_succ_of_le h.2⟩
  have hdigit := hpoints c.toNat hmem
  rwa [Char.ofNat_toNat] at hdigit

/-- A scanned word stands at its offset and begins as a word can. -/
structure IsScanned (word : Span) (offset : Nat) (text before behind : List Char) : Prop where
  text_eq : text = before ++ word.text ++ behind
  offset_eq : word.offset = offset + byteLength before
  starts : ∃ first rest, word.text = first :: rest ∧ isIdentifierStart first = true
  left : EndsApart before ∨ EndsInNumber before
  right : BeginsApart behind

/-- What a scan has passed over before a word stands before the word too. -/
theorem IsScanned.prepend {offset : Nat} (front : List Char)
    (h : IsScanned word (offset + byteLength front) text before behind)
    (hfront : before = [] → EndsApart front ∨ EndsInNumber front) :
    IsScanned word offset (front ++ text) (front ++ before) behind where
  text_eq := by rw [h.text_eq, List.append_assoc, List.append_assoc, List.append_assoc]
  offset_eq := by rw [h.offset_eq, byteLength_append, Nat.add_assoc]
  starts := h.starts
  left := by
    cases before with
    | nil =>
      rw [List.append_nil]
      exact hfront rfl
    | cons c before =>
      exact h.left.imp (fun hleft ↦ hleft.append_of_ne_nil (List.cons_ne_nil c before) front)
        fun hleft ↦ hleft.append front
  right := h.right

/-- Directly behind a word no other word begins. -/
theorem IsScanned.ne_nil {offset : Nat}
    (h : IsScanned word offset (text.dropWhile isIdentifierChar) before behind) : before ≠ [] := by
  rintro rfl
  obtain ⟨first, rest, hword, hfirst⟩ := h.starts
  have hnot := List.head?_dropWhile_not isIdentifierChar text
  rw [h.text_eq, hword] at hnot
  simp [isIdentifierChar_of_isIdentifierStart hfirst] at hnot

/-- What is scanned behind a word is scanned behind its first character. -/
theorem exists_isScanned_behindWord {offset : Nat}
    (h : let run := c :: text.takeWhile isIdentifierChar
      ∃ before behind,
        IsScanned word (offset + byteLength run) (text.drop (run.length - 1)) before behind) :
    ∃ before behind, IsScanned word offset (c :: text) before behind := by
  obtain ⟨before, behind, hscanned⟩ := h
  rw [List.length_cons, Nat.add_sub_cancel, drop_length_takeWhile] at hscanned
  have hwhole := hscanned.prepend (c :: text.takeWhile isIdentifierChar)
    fun hnil ↦ absurd hnil hscanned.ne_nil
  rw [List.cons_append, List.takeWhile_append_dropWhile] at hwhole
  exact ⟨_, _, hwhole⟩

/-- A scan takes words as they stand in the text. -/
theorem exists_isScanned_of_mem_occurrencesFrom {previous : Option Char} {offset : Nat}
    (h : word ∈ occurrencesFrom previous offset text) :
    ∃ before behind, IsScanned word offset text before behind := by
  fun_induction occurrencesFrom previous offset text with
  | case1 => cases h
  | case2 previous offset text ih =>
    obtain ⟨literal, htext, hlast⟩ := exists_append_afterString text
    have hlength : offset + ('"').utf8Size + (byteLength text - byteLength (afterString text)) =
        offset + byteLength ('"' :: literal) := by
      have hsum := congrArg byteLength htext
      rw [byteLength_append] at hsum
      rw [byteLength_cons]
      omega
    obtain ⟨before, behind, hscanned⟩ := ih h
    rw [hlength] at hscanned
    have hwhole := hscanned.prepend ('"' :: literal) fun _ ↦ .inl ?_
    · rw [List.cons_append, ← htext] at hwhole
      exact ⟨_, _, hwhole⟩
    · have hne : afterString text ≠ [] := by
        obtain ⟨first, rest, hword, -⟩ := hscanned.starts
        rw [hscanned.text_eq, hword]
        simp
      intro c hc
      rw [List.getLast?_cons, hlast hne] at hc
      cases hc
      exact not_isWordPart_of_mem (by decide)
  | case3 previous offset d text hquote hdigit number ih =>
    obtain ⟨before, behind, hscanned⟩ := ih h
    rw [Nat.add_assoc, ← byteLength_cons] at hscanned
    have hwhole := hscanned.prepend (d :: number) fun _ ↦ .inr ⟨[], d, number, rfl,
      isDecimalDigit_of_isDigit hdigit, fun c hc ↦ by simpa using List.mem_takeWhile_imp hc⟩
    rw [List.cons_append, drop_length_takeWhile, List.takeWhile_append_dropWhile] at hwhole
    exact ⟨_, _, hwhole⟩
  | case4 previous offset d text hquote hdigit hstart run later hreference ih =>
    rcases List.mem_cons.1 h with rfl | hlater
    · refine ⟨[], text.dropWhile isIdentifierChar, ?_, rfl, ⟨d, _, rfl, hstart⟩, .inl endsApart_nil, ?_⟩
      · exact congrArg (d :: ·) List.takeWhile_append_dropWhile.symm
      · exact beginsApart_dropWhile (fun _ ↦ isIdentifierChar_of_isWordPart) text
    · exact exists_isScanned_behindWord (ih hlater)
  | case5 previous offset d text hquote hdigit hstart run later hreference ih =>
    exact exists_isScanned_behindWord (ih h)
  | case6 previous offset d text hquote hdigit hstart ih =>
    obtain ⟨before, behind, hscanned⟩ := ih h
    refine ⟨_, _, hscanned.prepend [d] fun _ ↦ ?_⟩
    -- Digits of other scripts begin no number of the scan.
    by_cases hdecimal : isDecimalDigit d = true
    · exact .inr ⟨[], d, [], rfl, hdecimal, fun _ hc ↦ absurd hc List.not_mem_nil⟩
    · refine .inl (endsApart_concat ?_ [])
      rw [isIdentifierStart, Bool.or_eq_true, not_or] at hstart
      simp [isWordPart, hstart.1, hstart.2, hdecimal]

end VbaLint.Statement
