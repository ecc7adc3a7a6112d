import Mathlib.Data.List.TakeWhile
import VbaLint.Statement.Occurrence
import VbaLint.Statement.Signature

/-!
# Written names, types and parameters

The plain written form of a name, of a possibly dotted type and of a parameter with its modifiers.
Reading such a form gives back what was written, whatever of its parts are left out. A name that is a
reserved word would be taken for a modifier, so names are not reserved.
-/

namespace VbaLint.Statement

open Text

/-! ## Characters of names -/

theorem isWordChar_of_isNameStart {c : Char} (h : isNameStart c = true) : isWordChar c = true := by
  rw [isNameStart, Bool.or_eq_true, Bool.or_eq_true] at h
  rcases h with (hletter | hiota) | hunderscore
  · simp [isWordChar, isAlphabetic, hletter]
  · have hmark : inRanges markRanges c = true := by
      rw [inRanges, eq_of_beq hiota]
      decide
    simp [isWordChar, hmark]
  · rw [eq_of_beq hunderscore]
    decide +kernel

def blankPoints : List Nat :=
  [0x9, 0xA, 0xB, 0xC, 0xD, 0x20, 0x85, 0xA0, 0x1680, 0x2000, 0x2001, 0x2002, 0x2003, 0x2004, 0x2005,
    0x2006, 0x2007, 0x2008, 0x2009, 0x200A, 0x2028, 0x2029, 0x202F, 0x205F, 0x3000]

theorem mem_blankPoints {c : Char} (h : isBlank c = true) : c.toNat ∈ blankPoints := by
  simp only [isBlank, Bool.or_eq_true, Bool.and_eq_true, decide_eq_true_eq, beq_iff_eq] at h
  simp only [blankPoints, List.mem_cons, List.not_mem_nil, or_false]
  omega

theorem not_isBlank_of_isWordChar {c : Char} (h : isWordChar c = true) : isBlank c = false := by
  have hpoints : ∀ point ∈ blankPoints, isWordChar (Char.ofNat point) = false := by decide +kernel
  rw [← Bool.not_eq_true]
  intro hblank
  have hword := hpoints c.toNat (mem_blankPoints hblank)
  rw [Char.ofNat_toNat, h] at hword
  cases hword

/-- The character has no meaning of its own in a list of parameters. -/
def isPlain (c : Char) : Bool := c != ',' && c != '"' && c != '(' && c != ')' && c != '\n'

theorem isPlain_iff {c : Char} :
    isPlain c = true ↔ c ≠ ',' ∧ c ≠ '"' ∧ c ≠ '(' ∧ c ≠ ')' ∧ c ≠ '\n' := by
  simp [isPlain, and_assoc]

theorem isPlain_of_isWordChar {c : Char} (h : isWordChar c = true) : isPlain c = true := by
  have hmarks : [',', '"', '(', ')', '\n'].all (!isWordChar ·) = true := by decide +kernel
  have hne (mark : Char) (hmark : mark ∈ [',', '"', '(', ')', '\n']) : c ≠ mark := by
    rintro rfl
    have hmark' := List.all_eq_true.1 hmarks c hmark
    rw [h] at hmark'
    cases hmark'
  simp [isPlain, hne]

/-- The text begins with a character that is no blank. -/
def BeginsSolid (text : List Char) : Prop := ∃ first rest, text = first :: rest ∧ isBlank first = false

/-- The text ends with a character that is no blank. -/
def EndsSolid (text : List Char) : Prop := ∃ front last, text = front ++ [last] ∧ isBlank last = false

theorem BeginsSolid.append {text : List Char} (h : BeginsSolid text) (more : List Char) :
    BeginsSolid (text ++ more) := by
  obtain ⟨first, rest, rfl, hfirst⟩ := h
  exact ⟨first, rest ++ more, rfl, hfirst⟩

theorem EndsSolid.append {text : List Char} (h : EndsSolid text) (front : List Char) :
    EndsSolid (front ++ text) := by
  obtain ⟨before, last, rfl, hlast⟩ := h
  exact ⟨front ++ before, last, (List.append_assoc ..).symm, hlast⟩

theorem endsSolid_parentheses : EndsSolid "()".toList := ⟨['('], ')', rfl, rfl⟩

/-- Blanks are trimmed only from a text that begins with one. -/
theorem BeginsSolid.trimStart_eq {text : List Char} (h : BeginsSolid text) :
    trimStart text = text := by
  obtain ⟨first, rest, rfl, hfirst⟩ := h
  simp [trimStart, hfirst]

theorem EndsSolid.trimEnd_eq {text : List Char} (h : EndsSolid text) : trimEnd text = text := by
  obtain ⟨front, last, rfl, hlast⟩ := h
  simp [trimEnd, dropEndWhile, hlast]

/-- A text that begins and ends solid is not trimmed. -/
theorem trim_eq_self {text : List Char} (hbegin : BeginsSolid text) (hend : EndsSolid text) :
    trim text = text := by
  rw [trim, hbegin.trimStart_eq, hend.trimEnd_eq]

theorem BeginsSolid.not_allBlank {text : List Char} (h : BeginsSolid text) :
    allBlank text = false := by
  obtain ⟨first, rest, rfl, hfirst⟩ := h
  simp [allBlank, hfirst]

/-! ## Names -/

/-- A name as it is declared: a word that is not reserved. -/
structure Identifier where
  text : List Char
  starts : text.head?.any isNameStart = true
  isWord : text.all isWordChar = true
  notReserved : isReserved text = false

/-- What follows a name does not go on with it. -/
def EndsName (rest : List Char) : Prop := ∀ c ∈ rest.head?, isWordChar c = false

theorem endsName_cons {c : Char} (h : isWordChar c = false) (rest : List Char) :
    EndsName (c :: rest) := by
  simpa [EndsName] using h

theorem takeWhile_eq_nil_of_head {p : Char → Bool} {rest : List Char}
    (h : ∀ c ∈ rest.head?, p c = false) : rest.takeWhile p = [] ∧ rest.dropWhile p = rest := by
  cases rest with
  | nil => exact ⟨rfl, rfl⟩
  | cons c rest =>
    have hc : p c = false := h c rfl
    simp [hc]

namespace Identifier

variable (name : Identifier)

/-- A name begins as names do and goes on with word characters. -/
theorem exists_cons : ∃ first rest, name.text = first :: rest ∧ isNameStart first = true ∧
    ∀ c ∈ rest, isWordChar c = true := by
  have hstarts := name.starts
  have hword := name.isWord
  cases htext : name.text with
  | nil => simp [htext] at hstarts
  | cons first rest =>
    rw [htext] at hstarts hword
    exact ⟨first, rest, rfl, hstarts, List.all_eq_true.1 (Bool.and_eq_true_iff.1 hword).2⟩

theorem beginsSolid : BeginsSolid name.text := by
  obtain ⟨first, rest, htext, hfirst, -⟩ := name.exists_cons
  exact ⟨first, rest, htext, not_isBlank_of_isWordChar (isWordChar_of_isNameStart hfirst)⟩

theorem endsSolid : EndsSolid name.text := by
  obtain ⟨first, rest, htext, -⟩ := name.exists_cons
  have hne : name.text ≠ [] := by simp [htext]
  refine ⟨_, _, (List.dropLast_concat_getLast hne).symm, ?_⟩
  exact not_isBlank_of_isWordChar (List.all_eq_true.1 name.isWord _ (List.getLast_mem hne))

theorem isPlain_of_mem {c : Char} (h : c ∈ name.text) : isPlain c = true :=
  isPlain_of_isWordChar (List.all_eq_true.1 name.isWord c h)

/-- Reading takes the name as far as its characters go on. -/
theorem takeNameWith_append {continues : Char → Bool}
    (hcontinues : ∀ c, isWordChar c = true → continues c = true) {rest : List Char} :
    takeNameWith continues (name.text ++ rest) =
      some (name.text ++ rest.takeWhile continues, rest.dropWhile continues) := by
  obtain ⟨first, word, htext, hfirst, hword⟩ := name.exists_cons
  have hall : ∀ c ∈ word, continues c = true := fun c hc ↦ hcontinues c (hword c hc)
  rw [htext, List.cons_append, takeNameWith, if_pos hfirst, List.takeWhile_append_of_pos hall,
    List.dropWhile_append_of_pos hall]
  rfl

/-- A name is taken whole if what follows does not go on with it. -/
theorem takeName_append {rest : List Char} (hrest : EndsName rest) :
    takeName (name.text ++ rest) = some (name.text, rest) := by
  obtain ⟨htake, hdrop⟩ := takeWhile_eq_nil_of_head hrest
  rw [takeName, name.takeNameWith_append (fun _ h ↦ h), htake, hdrop, List.append_nil]

end Identifier

/-- The word has only letters that neither the long s nor the Kelvin sign spells, and that spell no
mark that may follow a name. -/
def isModifier (word : List Char) : Bool :=
  word.all fun letter ↦
    letter != 's' && letter != 'k' && !spells letter ' ' && !spells letter '('

/-- A modifier is only read off a name that is spelled like it. -/
theorem lowerAscii_of_afterWord {word name rest : List Char} (hmodifier : isModifier word = true)
    (hname : ∀ c ∈ name, isWordChar c = true)
    (hrest : ∀ c ∈ rest.head?, c = ' ' ∨ c = '(')
    (h : ((afterWord word (name ++ rest)).bind afterBlanks).isSome = true) :
    lowerAscii name = word := by
  induction word generalizing name with
  | nil =>
    cases name with
    | nil => rfl
    | cons c name =>
      have hblank := not_isBlank_of_isWordChar (hname c List.mem_cons_self)
      simp [afterWord, afterBlanks, hblank] at h
  | cons letter word ih =>
    obtain ⟨hletter, hword⟩ := Bool.and_eq_true_iff.1 hmodifier
    simp only [Bool.and_eq_true, bne_iff_ne, Bool.not_eq_true'] at hletter
    obtain ⟨⟨⟨hs, hk⟩, hspace⟩, hparenthesis⟩ := hletter
    cases name with
    | nil =>
      cases rest with
      | nil => simp [afterWord] at h
      | cons c rest =>
        rcases hrest c rfl with rfl | rfl
        · simp [afterWord, hspace] at h
        · simp [afterWord, hparenthesis] at h
    | cons c name =>
      obtain ⟨-, hname⟩ := List.forall_mem_cons.1 hname
      rw [List.cons_append, afterWord] at h
      split at h
      · next hspells =>
        have hlower : c.toLower = letter := by
          simpa [spells, hs, hk] using hspells
        rw [lowerAscii, List.map_cons, hlower, ← lowerAscii, ih hword hname h]
      · simp at h

theorem Identifier.afterKeyword_append (name : Identifier) {word : String}
    (hmodifier : isModifier word.toList = true) (hreserved : word ∈ reservedWords)
    (hlower : lowerAscii word.toList = word.toList) {rest : List Char}
    (hrest : ∀ c ∈ rest.head?, c = ' ' ∨ c = '(') :
    afterKeyword word (name.text ++ rest) = none := by
  rw [← Option.not_isSome_iff_eq_none]
  intro h
  have hsame := lowerAscii_of_afterWord hmodifier (List.all_eq_true.1 name.isWord) hrest h
  have hreads : isReserved name.text = true := by
    refine List.any_eq_true.2 ⟨word, hreserved, ?_⟩
    rw [sameIgnoringCase, hlower, hsame]
    exact beq_self_eq_true _
  rw [name.notReserved] at hreads
  cases hreads

/-! ## Types -/

/-- A type as it is written: names with dots between them. -/
structure TypeName where
  first : Identifier
  members : List Identifier

namespace TypeName

def text (type : TypeName) : List Char :=
  type.first.text ++ type.members.flatMap fun member ↦ '.' :: member.text

variable (type : TypeName)

theorem beginsSolid : BeginsSolid type.text := type.first.beginsSolid.append _

theorem mem_text {c : Char} (h : c ∈ type.text) : isWordChar c = true ∨ c = '.' := by
  rcases List.mem_append.1 h with hfirst | hmembers
  · exact .inl (List.all_eq_true.1 type.first.isWord c hfirst)
  · obtain ⟨member, -, hmember⟩ := List.mem_flatMap.1 hmembers
    rcases List.mem_cons.1 hmember with rfl | hname
    · exact .inr rfl
    · exact .inl (List.all_eq_true.1 member.isWord c hname)

theorem endsSolid : EndsSolid type.text := by
  obtain ⟨first, rest, htext, -⟩ := type.beginsSolid
  have hne : type.text ≠ [] := by simp [htext]
  refine ⟨_, _, (List.dropLast_concat_getLast hne).symm, ?_⟩
  rcases type.mem_text (List.getLast_mem hne) with hword | hdot
  · exact not_isBlank_of_isWordChar hword
  · rw [hdot]
    decide

theorem isPlain_of_mem {c : Char} (h : c ∈ type.text) : isPlain c = true := by
  rcases type.mem_text h with hword | rfl
  · exact isPlain_of_isWordChar hword
  · decide

theorem not_mem_text {c : Char} (h : isPlain c = false) : c ∉ type.text := by
  intro hmem
  rw [type.isPlain_of_mem hmem] at h
  cases h

/-- A written type is read as a dotted name, up to the end of the text. -/
theorem takeDottedName_text : takeDottedName type.text = some (type.text, []) := by
  have hdotted : ∀ c ∈ type.members.flatMap fun member ↦ '.' :: member.text,
      (isWordChar c || c == '.') = true := by
    intro c hc
    rcases type.mem_text (List.mem_append_right _ hc) with hword | rfl
    · simp [hword]
    · simp
  rw [takeDottedName, text, type.first.takeNameWith_append (fun c hc ↦ by simp [hc])]
  rw [List.takeWhile_eq_self_iff.2 hdotted, List.dropWhile_eq_nil_iff.2 hdotted]

end TypeName

/-! ## Parameters -/

inductive Passing where
  | byVal
  | byRef
  deriving DecidableEq, Repr

def Passing.text : Passing → List Char
  | byVal => "ByVal ".toList
  | byRef => "ByRef ".toList

structure ParameterForm where
  isOptional : Bool
  passing : Option Passing
  isParamArray : Bool
  name : Identifier
  isArray : Bool
  type : Option TypeName

namespace ParameterForm

def clause (form : ParameterForm) : List Char :=
  form.type.elim [] fun type ↦ " As ".toList ++ type.text

def behind (form : ParameterForm) : List Char :=
  (if form.isArray then "()".toList else []) ++ form.clause

def named (form : ParameterForm) : List Char := form.name.text ++ form.behind

/-- The form without the modifiers in front of `ParamArray`. -/
def gathered (form : ParameterForm) : List Char :=
  (if form.isParamArray then "ParamArray ".toList else []) ++ form.named

/-- The form without the modifier `Optional`. -/
def passed (form : ParameterForm) : List Char := form.passing.elim [] (·.text) ++ form.gathered

def text (form : ParameterForm) : List Char :=
  (if form.isOptional then "Optional ".toList else []) ++ form.passed

/-- The text in front of what is behind the name. -/
def front (form : ParameterForm) : List Char :=
  (if form.isOptional then "Optional ".toList else []) ++
    (form.passing.elim [] (·.text) ++
      ((if form.isParamArray then "ParamArray ".toList else []) ++ form.name.text))

def isTypedArray (form : ParameterForm) : Bool := form.isArray && form.type.isSome

def parameter (form : ParameterForm) : Parameter :=
  ⟨form.name.text, form.isArray, form.type.map (·.text)⟩

variable (form : ParameterForm)

theorem head_clause : ∀ c ∈ form.clause.head?, c = ' ' := by
  unfold clause
  cases form.type with
  | none => simp
  | some type => simp

theorem head_behind : ∀ c ∈ form.behind.head?, c = ' ' ∨ c = '(' := by
  unfold behind
  cases form.isArray with
  | true => simp
  | false => simpa using fun c hc ↦ Or.inl (form.head_clause c hc)

theorem endsName_behind : EndsName form.behind := by
  have hmarks : isWordChar ' ' = false ∧ isWordChar '(' = false := by decide +kernel
  intro c hc
  rcases form.head_behind c hc with rfl | rfl
  · exact hmarks.1
  · exact hmarks.2

/-! ### Where a parameter begins and ends -/

theorem beginsSolid_named : BeginsSolid form.named := form.name.beginsSolid.append _

theorem beginsSolid_gathered : BeginsSolid form.gathered := by
  unfold gathered
  cases form.isParamArray with
  | true => exact ⟨'P', _, rfl, rfl⟩
  | false => exact form.beginsSolid_named

theorem beginsSolid_passed : BeginsSolid form.passed := by
  unfold passed
  rcases form.passing with _ | _ | _
  · exact form.beginsSolid_gathered
  · exact ⟨'B', _, rfl, rfl⟩
  · exact ⟨'B', _, rfl, rfl⟩

theorem beginsSolid_text : BeginsSolid form.text := by
  unfold text
  cases form.isOptional with
  | true => exact ⟨'O', _, rfl, rfl⟩
  | false => exact form.beginsSolid_passed

theorem endsSolid_named : EndsSolid form.named := by
  unfold named behind clause
  cases form.type with
  | some type => exact ((type.endsSolid.append _).append _).append _
  | none =>
    cases form.isArray with
    | true => exact (List.append_nil "()".toList).symm ▸ endsSolid_parentheses.append _
    | false => exact (List.append_nil form.name.text).symm ▸ form.name.endsSolid

theorem endsSolid_text : EndsSolid form.text :=
  ((form.endsSolid_named.append _).append _).append _

/-- A parameter is written as what is in front of its name and what is behind it. -/
theorem text_eq : form.text = form.front ++ form.behind := by
  rw [text, passed, gathered, named, front]
  simp only [List.append_assoc]

/-- No character in front of the name closes or cuts a list. -/
theorem isPlain_of_mem_front {c : Char} (h : c ∈ form.front) : isPlain c = true := by
  have hoptional : "Optional ".toList.all isPlain = true := by decide
  have hpassing (passing : Passing) : passing.text.all isPlain = true := by
    cases passing <;> decide
  have hparamArray : "ParamArray ".toList.all isPlain = true := by decide
  simp only [front, List.mem_append] at h
  rcases h with h | h | h | h
  · split at h
    · exact List.all_eq_true.1 hoptional c h
    · cases h
  · cases hform : form.passing with
    | none => simp [hform] at h
    | some passing => exact List.all_eq_true.1 (hpassing passing) c (by simpa [hform] using h)
  · split at h
    · exact List.all_eq_true.1 hparamArray c h
    · cases h
  · exact form.name.isPlain_of_mem h

/-- No character of a type closes or cuts a list. -/
theorem isPlain_of_mem_clause {c : Char} (h : c ∈ form.clause) : isPlain c = true := by
  have has : " As ".toList.all isPlain = true := by decide
  unfold clause at h
  cases hform : form.type with
  | none => simp [hform] at h
  | some type =>
    rw [hform, Option.elim_some] at h
    rcases List.mem_append.1 h with h | h
    · exact List.all_eq_true.1 has c h
    · exact type.isPlain_of_mem h

/-- A parameter has no outer blanks. -/
theorem trim_text : trim form.text = form.text :=
  trim_eq_self form.beginsSolid_text form.endsSolid_text

/-! ### Reading the modifiers -/

/-- Modifiers are skipped only where one stands. -/
theorem skipOneOf_of_none {words : List String} {text : List Char}
    (h : ∀ word ∈ words, afterKeyword word text = none) : skipOneOf words text = text := by
  have hnone : afterOneOf words text = none := List.findSome?_eq_none_iff.2 h
  rw [skipOneOf, hnone, Option.getD_none]

theorem afterKeyword_named {word : String}
    (hword : word ∈ ["optional", "byval", "byref", "paramarray"]) :
    afterKeyword word form.named = none := by
  have hmodifier : ∀ word ∈ ["optional", "byval", "byref", "paramarray"],
      isModifier word.toList = true ∧ word ∈ reservedWords ∧
        lowerAscii word.toList = word.toList := by
    decide +kernel
  obtain ⟨hletters, hreserved, hlower⟩ := hmodifier word hword
  exact form.name.afterKeyword_append hletters hreserved hlower form.head_behind

theorem skip_gathered : skipOneOf ["paramarray"] form.gathered = form.named := by
  unfold gathered
  cases form.isParamArray with
  | true =>
    have hread : skipOneOf ["paramarray"] ("ParamArray ".toList ++ form.named) =
        trimStart form.named := rfl
    rw [if_pos rfl, hread, form.beginsSolid_named.trimStart_eq]
  | false => exact skipOneOf_of_none (by simp [form.afterKeyword_named])

theorem skip_passed : skipOneOf ["byval", "byref"] form.passed = form.gathered := by
  unfold passed
  rcases form.passing with _ | _ | _
  · refine skipOneOf_of_none fun word hword ↦ ?_
    change afterKeyword word form.gathered = none
    have hwords : word = "byval" ∨ word = "byref" := by simpa using hword
    unfold gathered
    cases form.isParamArray with
    | true => rcases hwords with rfl | rfl <;> rfl
    | false => rcases hwords with rfl | rfl <;> exact form.afterKeyword_named (by simp)
  · exact form.beginsSolid_gathered.trimStart_eq
  · exact form.beginsSolid_gathered.trimStart_eq

theorem skip_text : skipOneOf ["optional"] form.text = form.passed := by
  unfold text
  cases form.isOptional with
  | true => exact form.beginsSolid_passed.trimStart_eq
  | false =>
    refine skipOneOf_of_none (List.forall_mem_singleton.2 ?_)
    change afterKeyword "optional" form.passed = none
    unfold passed gathered
    rcases form.passing with _ | _ | _
    · cases form.isParamArray with
      | true => rfl
      | false => exact form.afterKeyword_named (by simp)
    · rfl
    · rfl

theorem takeParameterName_text : takeParameterName form.text = some (form.name.text, form.behind) := by
  unfold takeParameterName
  dsimp only
  rw [skip_text, skip_passed, skip_gathered, named, form.name.takeName_append form.endsName_behind]
  rfl

/-! ### Reading what is behind the name -/

theorem skipTypeSuffix_behind : skipTypeSuffix form.behind = form.behind := by
  have hhead := form.head_behind
  cases hbehind : form.behind with
  | nil => rfl
  | cons c rest =>
    rw [hbehind] at hhead
    rcases hhead c rfl with rfl | rfl
    · rfl
    · rfl

theorem asClause?_clause : asClause? form.clause = form.type.map (·.text) := by
  unfold clause
  cases form.type with
  | none => rfl
  | some type =>
    have hread : asClause? (" As ".toList ++ type.text) =
        (takeDottedName (trimStart type.text)).bind fun read ↦ some read.1 := rfl
    rw [Option.elim_some, hread, type.beginsSolid.trimStart_eq, type.takeDottedName_text]
    rfl

/-- A written parameter is read back. -/
theorem parameter?_text : parameter? form.text = some form.parameter := by
  have hparentheses : afterEmptyParentheses form.behind =
      if form.isArray then some form.clause else none := by
    unfold behind
    cases form.isArray with
    | true => rfl
    | false =>
      unfold clause
      cases form.type with
      | none => rfl
      | some type => rfl
  have hclause : form.isArray = false → form.behind = form.clause := by
    intro hplain
    rw [behind, hplain]
    rfl
  unfold parameter? parameter
  rw [form.trim_text, form.takeParameterName_text]
  simp only [bind, Option.bind_some, form.skipTypeSuffix_behind, hparentheses]
  cases harray : form.isArray with
  | true => simp [form.asClause?_clause]
  | false => simp [hclause harray, form.asClause?_clause]

end ParameterForm

end VbaLint.Statement
