import VbaLint.Proofs.Statement.Lowering
import VbaLint.Proofs.Statement.ParameterForm

/-!
# Scanning an expression in parts

The words that occur in a text are those of its parts, if the text is cut at a character that belongs
to no word and to no number, and outside of string literals. Blanks around a part hold no words.
-/

namespace VbaLint

open Text

/-- The span with its place given from `offset` bytes further on the left. -/
def Text.Span.behind (offset : Nat) (span : Span) : Span := ⟨span.text, offset + span.offset⟩

namespace Statement

/-! ## Characters between words -/

/-- The text ends inside a string literal. A doubled quote leaves a literal and enters it again. -/
def EndsInString (text : List Char) : Prop := text.count '"' % 2 = 1

instance (text : List Char) : Decidable (EndsInString text) :=
  inferInstanceAs (Decidable (text.count '"' % 2 = 1))

theorem not_endsInString_of_not_mem {text : List Char} (h : '"' ∉ text) : ¬ EndsInString text := by
  simp [EndsInString, List.count_eq_zero.2 h]

/-- The character goes on no word and no number, and begins no string literal. -/
structure IsSeparator (c : Char) : Prop where
  ne_quote : c ≠ '"'
  ne_dot : c ≠ '.'
  notWord : isIdentifierChar c = false

theorem isIdentifierChar_of_isIdentifierStart {c : Char} (h : isIdentifierStart c = true) :
    isIdentifierChar c = true := by
  rw [isIdentifierStart, Bool.or_eq_true] at h
  rcases h with halphabetic | hunderscore
  · simp [isIdentifierChar, isAlphanumeric, halphabetic]
  · simp [isIdentifierChar, hunderscore]

/-- The digits continue a word but begin none. -/
theorem isIdentifierChar_of_isDigit {c : Char} (h : c.isDigit = true) :
    isIdentifierChar c = true ∧ isIdentifierStart c = false := by
  have hpoints : ∀ point ∈ List.range' 48 10, isIdentifierChar (Char.ofNat point) = true ∧
      isIdentifierStart (Char.ofNat point) = false := by decide +kernel
  have hmem : c.toNat ∈ List.range' 48 10 := by
    simp only [Char.isDigit, Bool.and_eq_true, decide_eq_true_eq] at h
    rw [List.mem_range'_1]
    exact ⟨h.1, Nat.lt_succ_of_le h.2⟩
  have hword := hpoints c.toNat hmem
  rwa [Char.ofNat_toNat] at hword

theorem not_isDigit_of_isIdentifierStart {c : Char} (h : isIdentifierStart c = true) :
    ¬ c.isDigit = true := by
  intro hdigit
  rw [(isIdentifierChar_of_isDigit hdigit).2] at h
  cases h

theorem ne_quote_of_isIdentifierChar {c : Char} (h : isIdentifierChar c = true) : c ≠ '"' := by
  rintro rfl
  have hquote : isIdentifierChar '"' = false := by decide +kernel
  rw [hquote] at h
  cases h

theorem IsSeparator.notDigit {c : Char} (h : IsSeparator c) : c.isDigit = false := by
  rw [← Bool.not_eq_true]
  intro hdigit
  have hword := (isIdentifierChar_of_isDigit hdigit).1
  rw [h.notWord] at hword
  cases hword

theorem IsSeparator.notStart {c : Char} (h : IsSeparator c) : isIdentifierStart c = false := by
  rw [← Bool.not_eq_true]
  intro hstart
  have hword := isIdentifierChar_of_isIdentifierStart hstart
  rw [h.notWord] at hword
  cases hword

theorem isSeparator_of_isBlank {c : Char} (h : isBlank c = true) : IsSeparator c := by
  have hpoints : ∀ point ∈ blankPoints, Char.ofNat point ≠ '"' ∧ Char.ofNat point ≠ '.' ∧
      isIdentifierChar (Char.ofNat point) = false := by decide +kernel
  obtain ⟨hquote, hdot, hword⟩ := hpoints c.toNat (mem_blankPoints h)
  rw [Char.ofNat_toNat] at hquote hdot hword
  exact ⟨hquote, hdot, hword⟩

theorem isSeparator_equals : IsSeparator '=' := ⟨by decide, by decide, by decide +kernel⟩

/-! ## Literals -/

/-- A literal is passed over to its closing quote. -/
theorem exists_append_afterString (text : List Char) :
    ∃ literal, text = literal ++ afterString text ∧
      (afterString text ≠ [] → literal.getLast? = some '"') := by
  fun_induction afterString text with
  | case1 => exact ⟨[], rfl, fun h ↦ absurd rfl h⟩
  | case2 text ih =>
    obtain ⟨literal, htext, hlast⟩ := ih
    refine ⟨'"' :: '"' :: literal, congrArg ('"' :: '"' :: ·) htext, fun hne ↦ ?_⟩
    rw [List.getLast?_cons, List.getLast?_cons, hlast hne]
    rfl
  | case3 text => exact ⟨['"'], rfl, fun _ ↦ rfl⟩
  | case4 c text _ _ ih =>
    obtain ⟨literal, htext, hlast⟩ := ih
    refine ⟨c :: literal, congrArg (c :: ·) htext, fun hne ↦ ?_⟩
    rw [List.getLast?_cons, hlast hne]
    rfl

theorem byteLength_afterString_le (text : List Char) :
    byteLength (afterString text) ≤ byteLength text := by
  obtain ⟨literal, htext, -⟩ := exists_append_afterString text
  have hsum := congrArg byteLength htext
  rw [byteLength_append] at hsum
  omega

/-- A literal that ends in the first part ends there in the whole. -/
theorem afterString_append {text : List Char} (h : EndsInString text) {rest : List Char}
    (hrest : rest.head? ≠ some '"') :
    afterString (text ++ rest) = afterString text ++ rest ∧ ¬ EndsInString (afterString text) := by
  unfold EndsInString at h ⊢
  fun_induction afterString text with
  | case1 => simp at h
  | case2 text ih =>
    refine ih ?_
    simp only [List.count_cons_self] at h
    omega
  | case3 text hsingle =>
    rw [List.count_cons_self] at h
    refine ⟨?_, by omega⟩
    rw [List.cons_append, afterString_cons, if_pos rfl, if_neg]
    intro hhead
    cases text with
    | nil => exact hrest hhead
    | cons d text =>
      cases Option.some.inj hhead
      exact hsingle text rfl
  | case4 c text hdouble hquote ih =>
    have hne : c ≠ '"' := fun heq ↦ hquote heq
    rw [List.count_cons_of_ne hne] at h
    rw [List.cons_append, afterString_cons, if_neg hne]
    exact ih h

theorem not_endsInString_drop {text : List Char} (h : ¬ EndsInString text) {count : Nat}
    (hplain : '"' ∉ text.take count) : ¬ EndsInString (text.drop count) := by
  unfold EndsInString at h ⊢
  rw [← List.take_append_drop count text, List.count_append, List.count_eq_zero.2 hplain,
    Nat.zero_add] at h
  exact h

/-! ## Words -/

/-- A separator is no part of a word. -/
theorem occurrencesFrom_separator {c : Char} (h : IsSeparator c) (previous : Option Char)
    (offset : Nat) (rest : List Char) :
    occurrencesFrom previous offset (c :: rest) =
      occurrencesFrom (some c) (offset + c.utf8Size) rest := by
  rw [occurrencesFrom, if_neg h.ne_quote, if_neg (by simp [h.notDigit]),
    if_neg (by simp [h.notStart])]

/-- A run of characters ends where a character is not one of them. -/
theorem takeWhile_append_cons {p : Char → Bool} {c : Char} (h : p c = false)
    (text rest : List Char) : (text ++ c :: rest).takeWhile p = text.takeWhile p := by
  induction text with
  | nil => simp [h]
  | cons d text ih => rw [List.cons_append, List.takeWhile_cons, List.takeWhile_cons, ih]

theorem take_length_takeWhile (p : Char → Bool) (text : List Char) :
    text.take (text.takeWhile p).length = text.takeWhile p :=
  (List.prefix_iff_eq_take.1 (List.takeWhile_prefix p)).symm

theorem drop_length_takeWhile (p : Char → Bool) (text : List Char) :
    text.drop (text.takeWhile p).length = text.dropWhile p := by
  have hsplit := List.take_append_drop (text.takeWhile p).length text
  rw [take_length_takeWhile] at hsplit
  exact (List.append_right_inj _).1 (hsplit.trans List.takeWhile_append_dropWhile.symm)

theorem byteLength_takeWhile_add_drop (p : Char → Bool) (text : List Char) :
    byteLength (text.takeWhile p) + byteLength (text.drop (text.takeWhile p).length) =
      byteLength text := by
  rw [← byteLength_append, drop_length_takeWhile, List.takeWhile_append_dropWhile]

/-- A word that begins with `c` and what is behind it make up the text. -/
theorem byteLength_word_add_drop (c : Char) (text : List Char) :
    let word := c :: text.takeWhile isIdentifierChar
    byteLength word + byteLength (text.drop (word.length - 1)) = byteLength (c :: text) := by
  intro word
  rw [List.length_cons, Nat.add_sub_cancel, byteLength_cons, Nat.add_assoc,
    byteLength_takeWhile_add_drop, byteLength_cons]

theorem not_mem_takeWhile {p : Char → Bool} {c : Char} (h : p c = false) (text : List Char) :
    c ∉ text.takeWhile p := fun hmem ↦ by
  have htrue := List.mem_takeWhile_imp hmem
  rw [h] at htrue
  cases htrue

theorem not_endsInString_of_cons {c : Char} {text : List Char} (hquote : c ≠ '"')
    (h : ¬ EndsInString (c :: text)) : ¬ EndsInString text := by
  rwa [EndsInString, List.count_cons_of_ne hquote] at h

/-- Behind a word or a number, in which there is no quote, a text is in a literal as before. -/
theorem not_endsInString_drop_takeWhile {p : Char → Bool} (hquote : p '"' = false)
    {text : List Char} (h : ¬ EndsInString text) :
    ¬ EndsInString (text.drop (text.takeWhile p).length) := by
  apply not_endsInString_drop h
  rw [take_length_takeWhile]
  exact not_mem_takeWhile hquote text

/-- A word in a text that a separator cuts ends before the separator. -/
theorem occurrencesFrom_word_append {c d : Char} (hc : IsSeparator c)
    (hstart : isIdentifierStart d = true) (previous : Option Char) {offset : Nat}
    {text : List Char} (h : ¬ EndsInString (d :: text)) {rest : List Char}
    (ih : let word := d :: text.takeWhile isIdentifierChar
      ¬ EndsInString (text.drop (word.length - 1)) →
        occurrencesFrom (some (word.getLastD d)) (offset + byteLength word)
            (text.drop (word.length - 1) ++ c :: rest) =
          occurrencesFrom (some (word.getLastD d)) (offset + byteLength word)
              (text.drop (word.length - 1)) ++
            occurrencesFrom (some c)
              (offset + byteLength word + byteLength (text.drop (word.length - 1)) + c.utf8Size) rest) :
    occurrencesFrom previous offset (d :: text ++ c :: rest) =
      occurrencesFrom previous offset (d :: text) ++
        occurrencesFrom (some c) (offset + byteLength (d :: text) + c.utf8Size) rest := by
  have hquote := ne_quote_of_isIdentifierChar (isIdentifierChar_of_isIdentifierStart hstart)
  have hdigit := not_isDigit_of_isIdentifierStart hstart
  have hrun : (text ++ c :: rest).takeWhile isIdentifierChar = text.takeWhile isIdentifierChar :=
    takeWhile_append_cons hc.notWord text rest
  have hle : (text.takeWhile isIdentifierChar).length ≤ text.length :=
    (List.takeWhile_prefix _).length_le
  have hclosed : ¬ EndsInString (text.drop (text.takeWhile isIdentifierChar).length) :=
    not_endsInString_drop_takeWhile (by decide +kernel) (not_endsInString_of_cons hquote h)
  have hlater := ih hclosed
  simp only [List.length_cons, Nat.add_sub_cancel] at hlater
  have hplace : offset + byteLength (d :: text.takeWhile isIdentifierChar) +
      byteLength (text.drop (text.takeWhile isIdentifierChar).length) =
        offset + byteLength (d :: text) := by
    rw [Nat.add_assoc, byteLength_cons, Nat.add_assoc, byteLength_takeWhile_add_drop, byteLength_cons]
  rw [hplace] at hlater
  rw [List.cons_append, occurrencesFrom, occurrencesFrom, if_neg hquote, if_neg hquote,
    if_neg hdigit, if_neg hdigit, if_pos hstart, if_pos hstart, hrun]
  dsimp only
  simp only [List.length_cons, Nat.add_sub_cancel]
  rw [List.drop_append_of_le_length hle, hlater]
  split <;> rfl

/-- A separator outside of literals cuts a text into two that are scanned alone. -/
theorem occurrencesFrom_append {c : Char} (hc : IsSeparator c) {text : List Char}
    (h : ¬ EndsInString text) (previous : Option Char) (offset : Nat) (rest : List Char) :
    occurrencesFrom previous offset (text ++ c :: rest) =
      occurrencesFrom previous offset text ++
        occurrencesFrom (some c) (offset + byteLength text + c.utf8Size) rest := by
  fun_induction occurrencesFrom previous offset text with
  | case1 previous offset => exact occurrencesFrom_separator hc previous offset rest
  | case2 previous offset text ih =>
    have hopen : EndsInString text := by
      unfold EndsInString at h ⊢
      rw [List.count_cons_self] at h
      omega
    have hhead : (c :: rest).head? ≠ some '"' := fun heq ↦ hc.ne_quote (Option.some.inj heq)
    obtain ⟨hafter, hclosed⟩ := afterString_append hopen hhead
    have hle := byteLength_afterString_le text
    rw [List.cons_append, occurrencesFrom, if_pos rfl, hafter, byteLength_append,
      byteLength_append, Nat.add_sub_add_right, ih hclosed]
    congr 2
    rw [byteLength_cons]
    omega
  | case3 previous offset d text hquote hdigit number ih =>
    have hrun : (text ++ c :: rest).takeWhile (fun e ↦ isAlphanumeric e || e == '.') = number := by
      apply takeWhile_append_cons
      have hword := hc.notWord
      rw [isIdentifierChar, Bool.or_eq_false_iff] at hword
      simp [hword.1, hc.ne_dot]
    have hle : number.length ≤ text.length := (List.takeWhile_prefix _).length_le
    have hclosed : ¬ EndsInString (text.drop number.length) :=
      not_endsInString_drop_takeWhile (by decide +kernel) (not_endsInString_of_cons hquote h)
    rw [List.cons_append, occurrencesFrom, if_neg hquote, if_pos hdigit]
    dsimp only
    rw [hrun, List.drop_append_of_le_length hle, ih hclosed]
    have hparts : byteLength number + byteLength (text.drop number.length) = byteLength text :=
      byteLength_takeWhile_add_drop _ text
    congr 2
    rw [byteLength_cons]
    omega
  | case4 previous offset d text hquote hdigit hstart word later hreference ih =>
    have hword := occurrencesFrom_word_append hc hstart previous h ih
    rw [hword, occurrencesFrom, if_neg hquote, if_neg hdigit, if_pos hstart]
    dsimp only
    rw [if_pos hreference]
  | case5 previous offset d text hquote hdigit hstart word later hreference ih =>
    have hword := occurrencesFrom_word_append hc hstart previous h ih
    rw [hword, occurrencesFrom, if_neg hquote, if_neg hdigit, if_pos hstart]
    dsimp only
    rw [if_neg hreference]
  | case6 previous offset d text hquote hdigit hstart ih =>
    have hclosed := not_endsInString_of_cons hquote h
    rw [List.cons_append, occurrencesFrom, if_neg hquote, if_neg hdigit, if_neg hstart, ih hclosed]
    congr 2
    rw [byteLength_cons]
    omega

/-- A word at the front of a text, up to a character that does not go on with it. -/
theorem occurrencesFrom_name {c : Char} {rest tail : List Char} (hstart : isIdentifierStart c = true)
    (hrest : ∀ d ∈ rest, isIdentifierChar d = true)
    (htail : ∀ d ∈ tail.head?, isIdentifierChar d = false) (previous : Option Char)
    (offset : Nat) :
    occurrencesFrom previous offset (c :: rest ++ tail) =
      (if isReference previous (c :: rest) then [⟨c :: rest, offset⟩] else []) ++
        occurrencesFrom (some ((c :: rest).getLastD c)) (offset + byteLength (c :: rest)) tail := by
  have hquote := ne_quote_of_isIdentifierChar (isIdentifierChar_of_isIdentifierStart hstart)
  have hdigit := not_isDigit_of_isIdentifierStart hstart
  have hrun : (rest ++ tail).takeWhile isIdentifierChar = rest := by
    rw [List.takeWhile_append_of_pos hrest, (takeWhile_eq_nil_of_head htail).1, List.append_nil]
  rw [List.cons_append, occurrencesFrom, if_neg hquote, if_neg hdigit, if_pos hstart, hrun]
  dsimp only
  rw [List.length_cons, Nat.add_sub_cancel, List.drop_left]
  split <;> rfl

/-! ## Places -/

/-- Places count from the beginning of the text. -/
theorem occurrencesFrom_add (previous : Option Char) (before offset : Nat) (text : List Char) :
    occurrencesFrom previous (before + offset) text =
      (occurrencesFrom previous offset text).map (Span.behind before) := by
  fun_induction occurrencesFrom previous offset text with
  | case1 => simp [occurrencesFrom]
  | case2 previous offset text ih =>
    rw [occurrencesFrom, if_pos rfl, Nat.add_assoc before, Nat.add_assoc before, ih]
  | case3 previous offset d text hquote hdigit number ih =>
    rw [occurrencesFrom, if_neg hquote, if_pos hdigit]
    dsimp only
    rw [Nat.add_assoc before, Nat.add_assoc before, ih]
  | case4 previous offset d text hquote hdigit hstart word later hreference ih =>
    rw [occurrencesFrom, if_neg hquote, if_neg hdigit, if_pos hstart]
    dsimp only
    rw [if_pos hreference, Nat.add_assoc before, ih]
    rfl
  | case5 previous offset d text hquote hdigit hstart word later hreference ih =>
    rw [occurrencesFrom, if_neg hquote, if_neg hdigit, if_pos hstart]
    dsimp only
    rw [if_neg hreference, Nat.add_assoc before, ih]
  | case6 previous offset d text hquote hdigit hstart ih =>
    rw [occurrencesFrom, if_neg hquote, if_neg hdigit, if_neg hstart, Nat.add_assoc before, ih]

/-- The words of a text are found at their places wherever the text begins. -/
theorem occurrencesFrom_none (offset : Nat) (text : List Char) :
    occurrencesFrom none offset text = (occurrences text).map (Span.behind offset) :=
  occurrencesFrom_add none offset 0 text

/-- A word lies where the text does. -/
theorem offset_of_mem_occurrencesFrom {previous : Option Char} {offset : Nat} {text : List Char}
    {word : Span} (h : word ∈ occurrencesFrom previous offset text) :
    offset ≤ word.offset ∧ word.offset < offset + byteLength text := by
  fun_induction occurrencesFrom previous offset text with
  | case1 => cases h
  | case2 previous offset text ih =>
    have hle := byteLength_afterString_le text
    obtain ⟨hfirst, hlast⟩ := ih h
    rw [byteLength_cons]
    omega
  | case3 previous offset d text hquote hdigit number ih =>
    have hparts : byteLength number + byteLength (text.drop number.length) = byteLength text :=
      byteLength_takeWhile_add_drop _ text
    obtain ⟨hfirst, hlast⟩ := ih h
    rw [byteLength_cons]
    omega
  | case4 previous offset d text hquote hdigit hstart run later hreference ih =>
    have hparts : byteLength run + byteLength (text.drop (run.length - 1)) = byteLength (d :: text) :=
      byteLength_word_add_drop d text
    have hpos := byteLength_pos run (List.cons_ne_nil d _)
    rcases List.mem_cons.1 h with rfl | hlater
    · exact ⟨Nat.le_refl _, by dsimp only; omega⟩
    · obtain ⟨hfirst, hlast⟩ := ih hlater
      omega
  | case5 previous offset d text hquote hdigit hstart run later hreference ih =>
    have hparts : byteLength run + byteLength (text.drop (run.length - 1)) = byteLength (d :: text) :=
      byteLength_word_add_drop d text
    obtain ⟨hfirst, hlast⟩ := ih h
    omega
  | case6 previous offset d text hquote hdigit hstart ih =>
    obtain ⟨hfirst, hlast⟩ := ih h
    rw [byteLength_cons]
    omega

/-! ## Blanks -/

/-- The character before a text leaves the words of the text as they are. -/
def IsQuiet (previous : Option Char) : Prop :=
  previous ≠ some '.' ∧ previous ≠ some '!' ∧ previous ≠ some '&'

theorem isQuiet_of_isBlank {c : Char} (h : isBlank c = true) : IsQuiet (some c) := by
  have hmarks : isBlank '.' = false ∧ isBlank '!' = false ∧ isBlank '&' = false := by decide
  refine ⟨?_, ?_, ?_⟩
  all_goals
    intro heq
    cases heq
    simp [hmarks] at h

/-- Behind a character that is no mark, every word but a reserved one is a reference. -/
theorem isReference_of_isQuiet {previous : Option Char} (h : IsQuiet previous) (word : List Char) :
    isReference previous word = !isReserved word := by
  simp [isReference, h.1, h.2.1, h.2.2]

theorem occurrencesFrom_of_isQuiet {previous other : Option Char} (h : IsQuiet previous)
    (h' : IsQuiet other) (offset : Nat) (text : List Char) :
    occurrencesFrom previous offset text = occurrencesFrom other offset text := by
  cases text with
  | nil => rw [occurrencesFrom, occurrencesFrom]
  | cons c rest =>
    rw [occurrencesFrom, occurrencesFrom]
    simp only [isReference_of_isQuiet h, isReference_of_isQuiet h']

theorem isQuiet_none : IsQuiet none := ⟨nofun, nofun, nofun⟩

theorem isQuiet_equals : IsQuiet (some '=') := ⟨by decide, by decide, by decide⟩

/-- Blanks before a text move its words. -/
theorem occurrencesFrom_blanks_append {blanks : List Char} (hblanks : allBlank blanks = true)
    {previous : Option Char} (h : IsQuiet previous) (offset : Nat) (text : List Char) :
    occurrencesFrom previous offset (blanks ++ text) =
      occurrencesFrom none (offset + byteLength blanks) text := by
  induction blanks generalizing previous offset with
  | nil => exact occurrencesFrom_of_isQuiet h isQuiet_none offset text
  | cons c rest ih =>
    obtain ⟨hblank, hrest⟩ := Bool.and_eq_true_iff.1 hblanks
    rw [List.cons_append, occurrencesFrom_separator (isSeparator_of_isBlank hblank),
      ih hrest (isQuiet_of_isBlank hblank), byteLength_cons, Nat.add_assoc]

theorem occurrencesFrom_eq_nil_of_allBlank {text : List Char} (h : allBlank text = true)
    (previous : Option Char) (offset : Nat) : occurrencesFrom previous offset text = [] := by
  induction text generalizing previous offset with
  | nil => rw [occurrencesFrom]
  | cons c rest ih =>
    obtain ⟨hblank, hrest⟩ := Bool.and_eq_true_iff.1 h
    rw [occurrencesFrom_separator (isSeparator_of_isBlank hblank), ih hrest]

/-- Blanks behind a text add no words. -/
theorem occurrencesFrom_append_blanks {text : List Char} (h : ¬ EndsInString text)
    {blanks : List Char} (hblanks : allBlank blanks = true) (previous : Option Char)
    (offset : Nat) :
    occurrencesFrom previous offset (text ++ blanks) = occurrencesFrom previous offset text := by
  cases blanks with
  | nil => rw [List.append_nil]
  | cons c rest =>
    obtain ⟨hblank, hrest⟩ := Bool.and_eq_true_iff.1 hblanks
    rw [occurrencesFrom_append (isSeparator_of_isBlank hblank) h,
      occurrencesFrom_eq_nil_of_allBlank hrest, List.append_nil]

end Statement

end VbaLint
