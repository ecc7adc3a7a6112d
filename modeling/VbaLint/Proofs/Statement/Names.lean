import Mathlib.Data.List.Basic
import VbaLint.Proofs.Statement.AssignmentForm
import VbaLint.Statement.Signature
import VbaLint.Statement.Variable

/-!
# Names in declarations and in expressions

All forms of declarations take the same words for names. A scan of an expression takes such a word for
one word as long as all its characters are alphanumeric or underscores: at any other, such as a combining
mark, the scan cuts it.
-/

namespace VbaLint.Statement

open Text

/-- A word that can be declared: it begins as a name does and goes on with word characters. -/
def IsName (word : List Char) : Prop :=
  word.head?.any isNameStart = true ∧ ∀ c ∈ word, isWordChar c = true

instance (word : List Char) : Decidable (IsName word) :=
  decidable_of_iff ((word.head?.any isNameStart && word.all isWordChar) = true) <| by
    rw [IsName, Bool.and_eq_true, List.all_eq_true]

namespace IsName

variable {word : List Char} (h : IsName word)
include h

theorem exists_cons : ∃ first rest, word = first :: rest ∧ isNameStart first = true := by
  have hstarts := h.1
  cases word with
  | nil => cases hstarts
  | cons first rest => exact ⟨first, rest, rfl, hstarts⟩

theorem not_isBlank {c : Char} (hc : c ∈ word) : isBlank c = false :=
  not_isBlank_of_isWordChar (h.2 c hc)

/-- A name has no outer blanks. -/
theorem trim_eq : trim word = word := by
  obtain ⟨first, rest, hword, -⟩ := h.exists_cons
  have hne : word ≠ [] := by simp [hword]
  apply trim_eq_self
  · exact ⟨first, rest, hword, h.not_isBlank (hword ▸ List.mem_cons_self)⟩
  · exact ⟨_, _, (List.dropLast_concat_getLast hne).symm, h.not_isBlank (List.getLast_mem hne)⟩

theorem takeName_eq : takeName word = some (word, []) := by
  obtain ⟨first, rest, rfl, hfirst⟩ := h.exists_cons
  have hrest : ∀ c ∈ rest, isWordChar c = true := fun c hc ↦ h.2 c (List.mem_cons_of_mem first hc)
  rw [takeName, takeNameWith, if_pos hfirst, List.takeWhile_eq_self_iff.2 hrest,
    List.dropWhile_eq_nil_iff.2 hrest]

/-- The front of a name is a name. -/
theorem take {count : Nat} (hcount : 0 < count) : IsName (word.take count) := by
  obtain ⟨first, rest, rfl, hfirst⟩ := h.exists_cons
  obtain ⟨count, rfl⟩ := Nat.exists_eq_succ_of_ne_zero (Nat.ne_of_gt hcount)
  exact ⟨hfirst, fun c hc ↦ h.2 c (List.mem_of_mem_take hc)⟩

end IsName

/-- What is taken as a name is a name. -/
theorem isName_of_takeName {text word rest : List Char} (h : takeName text = some (word, rest)) :
    IsName word := by
  cases text with
  | nil => cases h
  | cons first text =>
    rw [takeName, takeNameWith] at h
    obtain ⟨hfirst, heq⟩ := Option.ite_none_right_eq_some.1 h
    cases heq
    refine ⟨hfirst, List.forall_mem_cons.2 ⟨isWordChar_of_isNameStart hfirst, ?_⟩⟩
    exact fun c hc ↦ List.mem_takeWhile_imp hc

/-- A text without blanks begins with no keyword. -/
theorem afterKeyword_of_no_blank {text : List Char} (h : ∀ c ∈ text, isBlank c = false)
    (word : String) : afterKeyword word text = none := by
  rw [afterKeyword, Option.bind_eq_none_iff]
  intro rest hrest
  obtain ⟨keyword, rfl, -⟩ := spells_of_afterWord hrest
  cases rest with
  | nil => rfl
  | cons c rest =>
    rw [afterBlanks, if_neg]
    rw [h c (List.mem_append_right keyword List.mem_cons_self)]
    exact Bool.false_ne_true

theorem skipOneOf_of_no_blank {text : List Char} (h : ∀ c ∈ text, isBlank c = false)
    (words : List String) : skipOneOf words text = text :=
  ParameterForm.skipOneOf_of_none fun word _ ↦ afterKeyword_of_no_blank h word

/-! ## Forms of declarations -/

/-- Wherever a name is taken from, it is a name. -/
theorem isName_of_or {left right : Option (List Char × List Char)} {word rest : List Char}
    (hleft : ∀ word rest, left = some (word, rest) → IsName word)
    (hright : ∀ word rest, right = some (word, rest) → IsName word)
    (h : left.or right = some (word, rest)) : IsName word := by
  rcases Option.or_eq_some_iff.1 h with hfirst | ⟨-, hsecond⟩
  · exact hleft word rest hfirst
  · exact hright word rest hsecond

theorem isName_of_declaredItem? {text : List Char} {declared : Variable}
    (h : declaredItem? text = some declared) : IsName declared.name := by
  obtain ⟨⟨name, rest⟩, htaken, h⟩ := Option.bind_eq_some_iff.1 h
  have hsame : declared.name = name := by
    dsimp only at h
    split at h <;> cases h <;> rfl
  rw [hsame]
  exact isName_of_or (fun _ _ ↦ isName_of_takeName) (fun _ _ ↦ isName_of_takeName) htaken

theorem isName_of_parameter? {text : List Char} {parameter : Parameter}
    (h : parameter? text = some parameter) : IsName parameter.name := by
  obtain ⟨⟨name, rest⟩, htaken, h⟩ := Option.bind_eq_some_iff.1 h
  have hsame : parameter.name = name := by
    dsimp only at h
    split at h <;> cases h <;> rfl
  rw [hsame]
  refine isName_of_or (fun _ _ ↦ isName_of_takeName) (fun _ _ ↦ ?_) htaken
  refine isName_of_or (fun _ _ ↦ isName_of_takeName) fun _ _ ↦ ?_
  exact isName_of_or (fun _ _ ↦ isName_of_takeName) fun _ _ ↦ isName_of_takeName

theorem isName_of_plainName? {text name : List Char} (h : plainName? text = some name) :
    IsName name := by
  obtain ⟨⟨taken, rest⟩, htaken, h⟩ := Option.bind_eq_some_iff.1 h
  obtain ⟨-, heq⟩ := Option.ite_none_right_eq_some.1 h
  cases heq
  exact isName_of_takeName htaken

theorem isName_of_signature? {text : List Char} {signature : Signature}
    (h : signature? text = some signature) : IsName signature.name.text := by
  obtain ⟨⟨kind, afterMember⟩, -, h⟩ := Option.bind_eq_some_iff.1 h
  obtain ⟨⟨name, rest⟩, htaken, h⟩ := Option.bind_eq_some_iff.1 h
  obtain ⟨front, -, htaken⟩ := Option.bind_eq_some_iff.1 htaken
  have hname := isName_of_takeName htaken
  dsimp only at h
  split at h
  · cases h
    exact hname
  · -- The name gives up its last two letters, which are the word `As`.
    split at h
    · cases h
    · next hlong =>
      obtain ⟨type, -, h⟩ := Option.bind_eq_some_iff.1 h
      cases h
      exact hname.take (by omega)

/-! ## Words that are names -/

namespace IsName

variable {word : List Char} (h : IsName word)
include h

theorem skipOneOf_eq (words : List String) : skipOneOf words word = word :=
  skipOneOf_of_no_blank (fun _ ↦ h.not_isBlank) words

/-- A name alone declares a variable. -/
theorem declaredItem?_eq : declaredItem? word = some ⟨word, false, false, none⟩ := by
  have htaken : takeVariableName (trim word) = some (word, []) := by
    rw [h.trim_eq, takeVariableName, h.skipOneOf_eq, h.takeName_eq]
    rfl
  rw [declaredItem?, htaken]
  rfl

/-- A name alone declares a parameter. -/
theorem parameter?_eq : parameter? word = some ⟨word, false, none⟩ := by
  have htaken : takeParameterName (trim word) = some (word, []) := by
    simp only [h.trim_eq, takeParameterName, h.skipOneOf_eq, h.takeName_eq]
    rfl
  rw [parameter?, htaken]
  rfl

theorem plainName?_eq : plainName? word = some word := by
  rw [plainName?, h.takeName_eq]
  rfl

/-- A name behind `Sub` makes the header of a member. -/
theorem signature?_eq : signature? ("Sub ".toList ++ word) =
    some ⟨.subStmt, ⟨word, 4⟩, true, none, none⟩ := by
  have hbegin : trimStart word = word := by
    obtain ⟨first, rest, rfl, -⟩ := h.exists_cons
    rw [trimStart, List.dropWhile_cons, h.not_isBlank List.mem_cons_self]
    rfl
  have haccess : takeAccess ("Sub ".toList ++ word) = (none, "Sub ".toList ++ word) := rfl
  have hmember : takeMemberWord (skipOneOf ["static"] ("Sub ".toList ++ word)) =
      some ("Sub".toList, ' ' :: word) := rfl
  have hname : (afterBlanks (' ' :: word)).bind takeName = some (word, []) := by
    change (some (trimStart word)).bind takeName = _
    rw [hbegin, Option.bind_some, h.takeName_eq]
  have hplace : spanBefore ("Sub ".toList ++ word) word [] = ⟨word, 4⟩ := by
    rw [spanBefore, byteLength_append, byteLength_nil, Nat.add_sub_cancel]
    rfl
  simp only [signature?, haccess, hmember, bind, Option.bind_some]
  rw [hname, Option.bind_some]
  simp only [hplace]
  rfl

end IsName

section Whole

variable {word : List Char}

/-- Exactly the names can be declared as variables. -/
theorem exists_declaredItem?_iff :
    (∃ declared, declaredItem? word = some declared ∧ declared.name = word) ↔ IsName word := by
  refine ⟨?_, fun h ↦ ⟨_, h.declaredItem?_eq, rfl⟩⟩
  rintro ⟨declared, hdeclared, heq⟩
  exact heq ▸ isName_of_declaredItem? hdeclared

/-- Exactly the names can be declared as parameters. -/
theorem exists_parameter?_iff :
    (∃ parameter, parameter? word = some parameter ∧ parameter.name = word) ↔ IsName word := by
  refine ⟨?_, fun h ↦ ⟨_, h.parameter?_eq, rfl⟩⟩
  rintro ⟨parameter, hparameter, heq⟩
  exact heq ▸ isName_of_parameter? hparameter

/-- Exactly the names can be declared as members. -/
theorem exists_signature?_iff :
    (∃ signature, signature? ("Sub ".toList ++ word) = some signature ∧
      signature.name.text = word) ↔ IsName word := by
  refine ⟨?_, fun h ↦ ⟨_, h.signature?_eq, rfl⟩⟩
  rintro ⟨signature, hsignature, heq⟩
  exact heq ▸ isName_of_signature? hsignature

/-- Exactly the names are plain targets. -/
theorem plainName?_eq_self_iff : plainName? word = some word ↔ IsName word :=
  ⟨isName_of_plainName?, fun h ↦ h.plainName?_eq⟩

end Whole

/-! ## Words that are scanned -/

/-- A scanned word has nothing but alphanumeric characters and underscores. -/
theorem isIdentifierChar_of_mem_occurrencesFrom {previous : Option Char} {offset : Nat}
    {text : List Char} {word : Span} (h : word ∈ occurrencesFrom previous offset text) {c : Char}
    (hc : c ∈ word.text) : isIdentifierChar c = true := by
  fun_induction occurrencesFrom previous offset text with
  | case1 => cases h
  | case2 previous offset text ih => exact ih h
  | case3 previous offset d text hquote hdigit number ih => exact ih h
  | case4 previous offset d text hquote hdigit hstart run later hreference ih =>
    rcases List.mem_cons.1 h with rfl | hlater
    · rcases List.mem_cons.1 hc with rfl | hrun
      · exact isIdentifierChar_of_isIdentifierStart hstart
      · exact List.mem_takeWhile_imp hrun
    · exact ih hlater
  | case5 previous offset d text hquote hdigit hstart run later hreference ih => exact ih h
  | case6 previous offset d text hquote hdigit hstart ih => exact ih h

/-- The word stands for itself between two pieces of an expression: outside of string literals, apart from
other words, and not behind a mark that makes it the name of a member or a hex literal. -/
structure IsUsed (before word behind : List Char) : Prop where
  outside : ¬ EndsInString before
  apart : ∀ c ∈ before.getLast?, IsSeparator c
  refers : isReference before.getLast? word = true
  ends : ∀ c ∈ behind.head?, isIdentifierChar c = false

namespace IsName

variable {word : List Char} (h : IsName word)
include h

/-- A name without marks is found wherever it is used. -/
theorem mem_occurrences (hword : ∀ c ∈ word, isIdentifierChar c = true) {before behind : List Char}
    (hused : IsUsed before word behind) :
    ⟨word, byteLength before⟩ ∈ occurrences (before ++ (word ++ behind)) := by
  obtain ⟨first, rest, rfl, hfirst⟩ := h.exists_cons
  have hrest : ∀ c ∈ rest, isIdentifierChar c = true :=
    fun c hc ↦ hword c (List.mem_cons_of_mem first hc)
  have hfront (previous : Option Char) (offset : Nat)
      (hrefers : isReference previous (first :: rest) = true) :
      ⟨first :: rest, offset⟩ ∈ occurrencesFrom previous offset (first :: rest ++ behind) := by
    rw [occurrencesFrom_name (isIdentifierStart_of_isNameStart hfirst) hrest hused.ends, if_pos hrefers]
    exact List.mem_cons_self
  have hrefers := hused.refers
  rcases List.eq_nil_or_concat' before with rfl | ⟨front, c, rfl⟩
  · exact hfront none 0 hrefers
  · have hclosed : ¬ EndsInString front := by
      have houtside := hused.outside
      have hquote := (hused.apart c (by simp)).ne_quote
      rwa [EndsInString, List.count_append, List.count_singleton, if_neg (by simpa using hquote),
        Nat.add_zero] at houtside
    rw [List.getLast?_concat] at hrefers
    rw [occurrences, List.append_assoc, List.singleton_append,
      occurrencesFrom_append (hused.apart c (by simp)) hclosed, byteLength_append, byteLength_cons,
      byteLength_nil]
    refine List.mem_append_right _ ?_
    rw [Nat.zero_add]
    exact hfront (some c) _ hrefers

/-- A scan takes a name for one word if and only if it has no marks. -/
theorem occurrences_eq_self_iff (hreserved : isReserved word = false) :
    occurrences word = [⟨word, 0⟩] ↔ ∀ c ∈ word, isIdentifierChar c = true := by
  constructor
  · intro hscan c hc
    have hmem : ⟨word, 0⟩ ∈ occurrencesFrom none 0 word := by
      rw [← occurrences, hscan]
      exact List.mem_cons_self
    exact isIdentifierChar_of_mem_occurrencesFrom hmem hc
  · intro hword
    obtain ⟨first, rest, rfl, hfirst⟩ := h.exists_cons
    have hrest : ∀ c ∈ rest, isIdentifierChar c = true :=
      fun c hc ↦ hword c (List.mem_cons_of_mem first hc)
    have hscan : occurrencesFrom none 0 (first :: rest ++ []) = _ :=
      occurrencesFrom_name (isIdentifierStart_of_isNameStart hfirst) hrest (fun _ hd ↦ by cases hd)
        none 0
    rw [isReference_of_isQuiet isQuiet_none, hreserved, Bool.not_false, if_pos rfl, occurrencesFrom,
      List.append_nil, List.append_nil] at hscan
    exact hscan

end IsName

end VbaLint.Statement
