import VbaLint.Proofs.Statement.Words

/-!
# Names in statements

The identifiers below the node of a statement are the names that its form declares and the words that its
expressions hold. The form finds each of them at one place of the statement. For a parameter and a variable
this place is not kept: the name is searched for again in its item, where the same letters may stand
earlier, in a modifier.
-/

namespace VbaLint.Statement

open Text

/-! ## Places of names -/

/-- A name where it is found, and the span in which it is searched for again. -/
structure Naming where
  name : Span
  within : Span
  deriving DecidableEq, Repr

namespace Naming

/-- The name keeps the place where it is found. -/
def exact (name : Span) : Naming := ⟨name, name⟩

/-- The naming in a text that begins `offset` bytes further on the left. -/
def behind (offset : Nat) (naming : Naming) : Naming :=
  ⟨naming.name.behind offset, naming.within.behind offset⟩

/-- The span of the name that is reported. -/
def reported (naming : Naming) : Span :=
  ⟨naming.name.text, naming.within.offset + offsetOf naming.name.text naming.within.text⟩

@[simp]
theorem reported_exact (name : Span) : (exact name).reported = name := by
  rw [reported, exact, offsetOf_self]
  rfl

@[simp]
theorem reported_behind (offset : Nat) (naming : Naming) :
    (naming.behind offset).reported = naming.reported.behind offset := by
  rw [reported, reported, behind, Span.behind, Span.behind, Span.behind, Nat.add_assoc]

end Naming

def namingsIn (span : Span) (namings : List Char → List Naming) : List Naming :=
  (namings span.text).map (Naming.behind span.offset)

def listNamings (list : Span) (namings : List Char → List Naming) : List Naming :=
  (items list.text).flatMap fun item ↦ namingsIn (item.behind list.offset) namings

def expressionNamings (text : List Char) : List Naming := (occurrences text).map Naming.exact

def constantNamings (text : List Char) : List Naming :=
  let name := text.takeWhile isIdentifierChar
  (if name.isEmpty then [] else [Naming.exact ⟨name, 0⟩]) ++
    match text.dropWhile (· != '=') with
    | [] => []
    | _ :: behind =>
      let value := trimStart behind
      namingsIn ⟨value, byteLength text - byteLength value⟩ expressionNamings

/-- A name that is taken from an item, in front of the given rest, and searched for in the item. -/
def takenNamings (text : List Char) (taken : Option (List Char × List Char)) : List Naming :=
  match taken with
  | none => []
  | some (name, rest) => [⟨spanBefore text name rest, ⟨text, 0⟩⟩]

def variableNamings (text : List Char) : List Naming := takenNamings text (takeVariableName (trim text))

def parameterNamings (text : List Char) : List Naming := takenNamings text (takeParameterName (trim text))

def targetNamings (text : List Char) : List Naming :=
  match plainName? text with
  | some name => [Naming.exact ⟨name, 0⟩]
  | none => expressionNamings text

def Shape.namings (text : List Char) : Shape → List Naming
  | .option _ | .attribute | .declare => []
  | .blockStart _ name => [Naming.exact name]
  | .procedureStart signature =>
    Naming.exact signature.name ::
      signature.parameters.elim [] fun list ↦ listNamings list parameterNamings
  | .constants list => listNamings list constantNamings
  | .variables list => listNamings list variableNamings
  | .setAssignment assignment | .letAssignment assignment =>
    namingsIn assignment.target targetNamings ++ namingsIn assignment.value expressionNamings
  | .call expression => namingsIn expression expressionNamings
  | .procedureEnd | .blockEnd | .other => namingsIn ⟨text, 0⟩ expressionNamings

def namingsOf (text : List Char) : List Naming := (shapeOf text).namings text

theorem map_behind_namingsIn (offset : Nat) (span : Span) (namings : List Char → List Naming) :
    (namingsIn span namings).map (Naming.behind offset) = namingsIn (span.behind offset) namings := by
  rw [namingsIn, namingsIn, List.map_map]
  apply List.map_congr_left
  intro naming _
  simp only [Function.comp_apply, Naming.behind, Span.behind, Nat.add_assoc]

theorem namingsIn_constantNamings (item : Span) :
    namingsIn item constantNamings =
      (if (item.text.takeWhile isIdentifierChar).isEmpty then []
        else [Naming.exact ⟨item.text.takeWhile isIdentifierChar, item.offset⟩]) ++
        match item.text.dropWhile (· != '=') with
        | [] => []
        | _ :: behind =>
          namingsIn
            ⟨trimStart behind, item.offset + (byteLength item.text - byteLength (trimStart behind))⟩
            expressionNamings := by
  rw [namingsIn, constantNamings, List.map_append]
  congr 1
  · split <;> rfl
  · cases item.text.dropWhile (· != '=') with
    | nil => rfl
    | cons c behind => exact map_behind_namingsIn ..

/-- The name of a variable is taken from the front of its item. -/
theorem map_name_declaredItem? (text : List Char) :
    (declaredItem? text).map (·.name) = (takeVariableName (trim text)).map (·.1) := by
  rw [declaredItem?]
  cases takeVariableName (trim text) with
  | none => rfl
  | some taken =>
    dsimp only [bind, Option.bind_some, Option.map_some]
    split <;> rfl

/-- The name of a parameter is taken behind its modifiers. -/
theorem map_name_parameter? (text : List Char) :
    (parameter? text).map (·.name) = (takeParameterName (trim text)).map (·.1) := by
  rw [parameter?]
  cases takeParameterName (trim text) with
  | none => rfl
  | some taken =>
    dsimp only [bind, Option.bind_some, Option.map_some]
    split <;> rfl

/-! ## Spans that stand apart -/

/-- The text begins with the word `As` and a blank. -/
def BeginsWithAs (text : List Char) : Prop :=
  ∃ word rest, text = word ++ rest ∧ Spells "as".toList word ∧ ∃ c ∈ rest.head?, isBlank c = true

/-- The span stands in the text apart from other words. -/
def IsApart (span : Span) (text : List Char) : Prop :=
  ∃ before behind, span.Splits text before behind ∧ EndsApart before ∧ BeginsApart behind

/-- The name stands in the text where it is found, as a whole word but for two cases: a number may end
directly before it, and the word `As` may begin directly behind it. -/
structure Naming.IsFound (naming : Naming) (text : List Char) : Prop where
  stands : ∃ before behind, naming.name.Splits text before behind ∧
    (EndsApart before ∨ EndsInNumber before) ∧ (BeginsApart behind ∨ BeginsWithAs behind)
  within : ∃ before behind, naming.within.Splits text before behind
  inside : ∃ before behind, naming.within.text = before ++ naming.name.text ++ behind ∧
    naming.name.offset = naming.within.offset + byteLength before
  ne_nil : naming.name.text ≠ []

/-- The name where it is found, the span in which it is searched and the name where it is reported begin and
end between characters of the text. -/
def Naming.IsCutFrom (naming : Naming) (text : List Char) : Prop :=
  ∀ span ∈ [naming.name, naming.within, naming.reported], ∃ before behind, span.Splits text before behind

/-- The letters of the name stand in the span that is searched before the place where the name is found. -/
def Naming.OccursBefore (naming : Naming) : Prop :=
  ∃ before behind, naming.within.text = before ++ naming.name.text ++ behind ∧
    naming.within.offset + byteLength before < naming.name.offset

variable {text rest name : List Char} {outer span : Span} {naming : Naming}

theorem BeginsWithAs.append (h : BeginsWithAs text) (more : List Char) : BeginsWithAs (text ++ more) := by
  obtain ⟨word, rest, rfl, hword, c, hc, hblank⟩ := h
  refine ⟨word, rest ++ more, List.append_assoc .., hword, c, ?_, hblank⟩
  rw [List.head?_append, hc]
  rfl

theorem splits_inner {inner : Span} {before behind front rest : List Char}
    (houter : outer.Splits text before behind) (hinner : inner.Splits outer.text front rest) :
    (inner.behind outer.offset).Splits text (before ++ front) (rest ++ behind) where
  text_eq := by
    rw [houter.text_eq, hinner.text_eq]
    simp [Span.behind]
  offset_eq := by rw [Span.behind, houter.offset_eq, hinner.offset_eq, byteLength_append]

theorem splits_whole (text : List Char) : Span.Splits ⟨text, 0⟩ text [] [] :=
  ⟨(List.append_nil text).symm, rfl⟩

theorem isApart_whole (text : List Char) : IsApart ⟨text, 0⟩ text :=
  ⟨[], [], splits_whole text, endsApart_nil, beginsApart_nil⟩

/-- What stands apart in a part that stands apart stands apart in the whole. -/
theorem IsApart.inside (houter : IsApart outer text) (hinner : IsApart span outer.text) :
    IsApart (span.behind outer.offset) text := by
  obtain ⟨before, behind, hsplits, hleft, hright⟩ := houter
  obtain ⟨front, rest, hsplits', hleft', hright'⟩ := hinner
  exact ⟨_, _, splits_inner hsplits hsplits', hleft.append hleft', hright'.append hright⟩

namespace Naming.IsFound

/-- What is found in a span that stands apart is found in the whole text. -/
theorem inSpan (houter : IsApart outer text) (h : naming.IsFound outer.text) :
    (naming.behind outer.offset).IsFound text where
  stands := by
    obtain ⟨before, behind, hsplits, hleft, hright⟩ := houter
    obtain ⟨front, rest, hsplits', hleft', hright'⟩ := h.stands
    refine ⟨_, _, splits_inner hsplits hsplits', ?_, ?_⟩
    · exact hleft'.imp (fun hapart ↦ hleft.append hapart) fun hnumber ↦ hnumber.append before
    · exact hright'.imp (fun hapart ↦ hapart.append hright) fun has ↦ has.append behind
  within := by
    obtain ⟨before, behind, hsplits, -⟩ := houter
    obtain ⟨front, rest, hsplits'⟩ := h.within
    exact ⟨_, _, splits_inner hsplits hsplits'⟩
  inside := by
    obtain ⟨front, rest, htext, hoffset⟩ := h.inside
    refine ⟨front, rest, htext, ?_⟩
    rw [Naming.behind, Span.behind, Span.behind, hoffset, Nat.add_assoc]
  ne_nil := h.ne_nil

/-- A span that stands apart and is not empty keeps its place. -/
theorem exact (h : IsApart span text) (hne : span.text ≠ []) : (Naming.exact span).IsFound text where
  stands := by
    obtain ⟨before, behind, hsplits, hleft, hright⟩ := h
    exact ⟨before, behind, hsplits, .inl hleft, .inl hright⟩
  within := by
    obtain ⟨before, behind, hsplits, -⟩ := h
    exact ⟨before, behind, hsplits⟩
  inside := ⟨[], [], (List.append_nil _).symm, rfl⟩
  ne_nil := hne

/-- The name is reported where the same letters stand first in the span that is searched. -/
theorem exists_splits_reported (h : naming.IsFound text) :
    ∃ before behind, naming.reported.Splits text before behind := by
  obtain ⟨front, rest, hinside, -⟩ := h.inside
  obtain ⟨front', rest', hsplit, hfound⟩ := exists_append_offsetOf hinside
  obtain ⟨before, behind, hwithin⟩ := h.within
  have hinner : Span.Splits ⟨naming.name.text, offsetOf naming.name.text naming.within.text⟩
      naming.within.text front' rest' := ⟨hsplit, hfound⟩
  exact ⟨_, _, splits_inner hwithin hinner⟩

/-- What is found is cut from the text. -/
theorem isCutFrom (h : naming.IsFound text) : naming.IsCutFrom text := by
  obtain ⟨before, behind, hname, -⟩ := h.stands
  refine List.forall_mem_cons.2 ⟨⟨before, behind, hname⟩, List.forall_mem_cons.2 ⟨h.within, ?_⟩⟩
  exact List.forall_mem_singleton.2 h.exists_splits_reported

/-- It is reported where it is found if and only if the same letters stand nowhere before in the span. -/
theorem reported_eq_iff (h : naming.IsFound text) :
    naming.reported = naming.name ↔ ¬naming.OccursBefore := by
  obtain ⟨front, rest, hinside, hoffset⟩ := h.inside
  have hle := offsetOf_le hinside
  have hiff : naming.reported = naming.name ↔
      offsetOf naming.name.text naming.within.text = byteLength front := by
    constructor
    · intro heq
      have hplace := congrArg Span.offset heq
      rw [hoffset] at hplace
      exact Nat.add_left_cancel hplace
    · intro heq
      rw [Naming.reported, heq, ← hoffset]
  rw [hiff]
  constructor
  · rintro heq ⟨before, behind, hearlier, hlt⟩
    have := offsetOf_le hearlier
    omega
  · intro hnone
    obtain ⟨before, behind, hsplit, hfound⟩ := exists_append_offsetOf hinside
    by_contra hne
    exact hnone ⟨before, behind, hsplit, by omega⟩

end Naming.IsFound

/-! ## Where forms find their names -/

/-- The second text ends the first, and no word goes on before it. -/
def LeadsTo (text rest : List Char) : Prop := ∃ front, text = front ++ rest ∧ EndsApart front

namespace LeadsTo

theorem refl (text : List Char) : LeadsTo text text := ⟨[], rfl, endsApart_nil⟩

theorem trans {further : List Char} (h : LeadsTo text rest) (h' : LeadsTo rest further) :
    LeadsTo text further := by
  obtain ⟨front, rfl, hfront⟩ := h
  obtain ⟨middle, rfl, hmiddle⟩ := h'
  exact ⟨front ++ middle, (List.append_assoc ..).symm, hfront.append hmiddle⟩

/-- The rest of the text is a span that stands apart. -/
theorem isApart (h : LeadsTo text rest) : IsApart (spanBefore text rest []) text := by
  obtain ⟨front, rfl, hfront⟩ := h
  refine ⟨front, [], ⟨(List.append_nil _).symm, ?_⟩, hfront, beginsApart_nil⟩
  rw [spanBefore, byteLength_append, byteLength_nil]
  dsimp only
  omega

end LeadsTo

/-- Blanks part what stands behind them from whatever word stands before. -/
theorem leadsTo_of_afterBlanks (front : List Char) (h : afterBlanks text = some rest) :
    LeadsTo (front ++ text) rest := by
  obtain ⟨blanks, rfl, hne, hblank⟩ := blanks_of_afterBlanks h
  refine ⟨front ++ blanks, (List.append_assoc ..).symm, ?_⟩
  exact (endsApart_of_allBlank hblank).append_of_ne_nil hne front

theorem leadsTo_of_afterKeyword {word : String} (h : afterKeyword word text = some rest) :
    LeadsTo text rest := by
  obtain ⟨behind, hword, hblanks⟩ := Option.bind_eq_some_iff.1 h
  obtain ⟨keyword, rfl, -⟩ := spells_of_afterWord hword
  exact leadsTo_of_afterBlanks keyword hblanks

theorem leadsTo_of_afterOneOf {words : List String} (h : afterOneOf words text = some rest) :
    LeadsTo text rest := by
  obtain ⟨word, -, hword⟩ := List.exists_of_findSome?_eq_some h
  exact leadsTo_of_afterKeyword hword

theorem leadsTo_skipOneOf (words : List String) (text : List Char) :
    LeadsTo text (skipOneOf words text) := by
  rw [skipOneOf]
  cases h : afterOneOf words text with
  | none => exact .refl text
  | some rest => exact leadsTo_of_afterOneOf h

/-- A name that is taken from the front of a text is not empty and ends as a word. -/
theorem append_of_takeName (h : takeName text = some (name, rest)) :
    text = name ++ rest ∧ BeginsApart rest ∧ name ≠ [] := by
  refine ⟨append_of_takeNameWith h, ?_, ?_⟩
  · cases text with
    | nil => cases h
    | cons c text =>
      obtain ⟨-, heq⟩ := Option.ite_none_right_eq_some.1 h
      cases heq
      exact beginsApart_dropWhile (fun _ ↦ isWordChar_of_isWordPart) text
  · obtain ⟨first, more, hname, -⟩ := (isName_of_takeName h).exists_cons
    rw [hname]
    exact List.cons_ne_nil first more

/-- A name behind such a front stands apart. -/
theorem isApart_of_takeName {taken : List Char} (hlead : LeadsTo text taken)
    (h : takeName taken = some (name, rest)) : IsApart (spanBefore text name rest) text := by
  obtain ⟨front, rfl, hfront⟩ := hlead
  obtain ⟨rfl, hrest, -⟩ := append_of_takeName h
  refine ⟨front, rest, ⟨(List.append_assoc ..).symm, ?_⟩, hfront, hrest⟩
  rw [spanBefore, byteLength_append, byteLength_append]
  dsimp only
  omega

/-! ### Items of lists -/

/-- Every item of a list stands apart. -/
theorem isApart_of_mem_items {list : List Char} {item : Span} (h : item ∈ items list) :
    IsApart item list := by
  obtain ⟨before, behind, htext, hoffset, hbefore, hbehind⟩ :=
    exists_splits_of_mem_locatePieces (cutAt_itemPieces 0 false list) (items_eq list ▸ h)
  have hedge (c : Char) (hc : isBlank c = true ∨ c = ',') : isWordPart c = false := by
    rcases hc with hblank | rfl
    · exact not_isWordPart_of_isBlank hblank
    · exact not_isWordPart_of_mem (by decide)
  exact ⟨before, behind, ⟨htext, by rw [hoffset, Nat.zero_add]⟩, fun c hc ↦ hedge c (hbefore c hc),
    fun c hc ↦ hedge c (hbehind c hc)⟩

theorem beginsSolid_trim (h : trim text ≠ []) : BeginsSolid (trim text) := by
  obtain ⟨first, rest, hcons⟩ := List.exists_cons_of_ne_nil h
  have hhead : (trim text).head? = some first := by rw [hcons, List.head?_cons]
  exact ⟨first, rest, hcons, not_isBlank_of_head_trim hhead⟩

theorem endsSolid_trim (h : trim text ≠ []) : EndsSolid (trim text) := by
  have hlast : (trimEnd (trimStart text)).getLast? = some ((trim text).getLast h) :=
    List.getLast?_eq_some_getLast h
  exact ⟨_, _, (List.dropLast_concat_getLast h).symm, not_isBlank_of_getLast_trimEnd hlast⟩

theorem trim_of_mem_items {list : List Char} {item : Span} (h : item ∈ items list) :
    trim item.text = item.text := by
  obtain ⟨piece, -, heq, hne⟩ := exists_piece_of_mem_locatePieces (items_eq list ▸ h)
  rw [heq]
  exact trim_eq_self (beginsSolid_trim hne) (endsSolid_trim hne)

/-- What is found in the items of a list is found in the text that the list stands in. -/
theorem isFound_of_mem_listNamings {list : Span} {namings : List Char → List Naming}
    (hlist : IsApart list text) (h : naming ∈ listNamings list namings)
    (hitem : ∀ item, trim item = item → ∀ naming ∈ namings item, naming.IsFound item) :
    naming.IsFound text := by
  obtain ⟨item, hmem, h⟩ := List.mem_flatMap.1 h
  obtain ⟨inner, hinner, rfl⟩ := List.mem_map.1 h
  have hspan : IsApart (item.behind list.offset) text := hlist.inside (isApart_of_mem_items hmem)
  exact (hitem item.text (trim_of_mem_items hmem) inner hinner).inSpan hspan

theorem isFound_of_mem_namingsIn {namings : List Char → List Naming} (hspan : IsApart span text)
    (h : naming ∈ namingsIn span namings)
    (hfound : ∀ naming ∈ namings span.text, naming.IsFound span.text) : naming.IsFound text := by
  obtain ⟨inner, hinner, rfl⟩ := List.mem_map.1 h
  exact (hfound inner hinner).inSpan hspan

/-! ### Words of expressions -/

theorem isFound_of_mem_expressionNamings (h : naming ∈ expressionNamings text) : naming.IsFound text := by
  obtain ⟨word, hword, rfl⟩ := List.mem_map.1 h
  obtain ⟨before, behind, hscanned⟩ := exists_isScanned_of_mem_occurrencesFrom hword
  have hsplits : word.Splits text before behind :=
    ⟨hscanned.text_eq, by rw [hscanned.offset_eq, Nat.zero_add]⟩
  obtain ⟨first, rest, hcons, -⟩ := hscanned.starts
  exact
    { stands := ⟨before, behind, hsplits, hscanned.left, .inl hscanned.right⟩
      within := ⟨before, behind, hsplits⟩
      inside := ⟨[], [], (List.append_nil _).symm, rfl⟩
      ne_nil := fun hnil ↦ List.cons_ne_nil first rest (hcons.symm.trans hnil) }

/-! ### Names of items -/

/-- Where a name is taken from behind some fronts of the text, it is found there. -/
theorem isFound_of_mem_takenNamings {taken? : Option (List Char × List Char)}
    (htaken : ∀ name rest, taken? = some (name, rest) →
      ∃ taken, LeadsTo text taken ∧ takeName taken = some (name, rest))
    (h : naming ∈ takenNamings text taken?) : naming.IsFound text := by
  cases hsome : taken? with
  | none =>
    rw [hsome] at h
    cases h
  | some pair =>
    obtain ⟨name, rest⟩ := pair
    rw [hsome] at h
    cases List.mem_singleton.1 h
    obtain ⟨taken, hlead, hname⟩ := htaken name rest hsome
    obtain ⟨before, behind, hsplits, hleft, hright⟩ := isApart_of_takeName hlead hname
    exact
      { stands := ⟨before, behind, hsplits, .inl hleft, .inl hright⟩
        within := ⟨[], [], splits_whole text⟩
        inside := ⟨before, behind, hsplits.text_eq, hsplits.offset_eq.trans (Nat.zero_add _).symm⟩
        ne_nil := (append_of_takeName hname).2.2 }

theorem isFound_of_mem_variableNamings (htrim : trim text = text) (h : naming ∈ variableNamings text) :
    naming.IsFound text := by
  refine isFound_of_mem_takenNamings (fun name rest htaken ↦ ?_) h
  rw [htrim, takeVariableName] at htaken
  rcases Option.or_eq_some_iff.1 htaken with hname | ⟨-, hname⟩
  · exact ⟨_, leadsTo_skipOneOf _ text, hname⟩
  · exact ⟨text, .refl text, hname⟩

theorem isFound_of_mem_parameterNamings (htrim : trim text = text) (h : naming ∈ parameterNamings text) :
    naming.IsFound text := by
  refine isFound_of_mem_takenNamings (fun name rest htaken ↦ ?_) h
  rw [htrim, takeParameterName] at htaken
  have hoptional := leadsTo_skipOneOf ["optional"] text
  have hpassing := hoptional.trans (leadsTo_skipOneOf ["byval", "byref"] _)
  have harray := hpassing.trans (leadsTo_skipOneOf ["paramarray"] _)
  rcases Option.or_eq_some_iff.1 htaken with hname | ⟨-, htaken⟩
  · exact ⟨_, harray, hname⟩
  rcases Option.or_eq_some_iff.1 htaken with hname | ⟨-, htaken⟩
  · exact ⟨_, hpassing, hname⟩
  rcases Option.or_eq_some_iff.1 htaken with hname | ⟨-, hname⟩
  · exact ⟨_, hoptional, hname⟩
  · exact ⟨text, .refl text, hname⟩

theorem leadsTo_behind_equals {front behind : List Char} :
    LeadsTo (front ++ '=' :: behind) (trimStart behind) := by
  obtain ⟨blanks, hbehind, hblank⟩ := trimStart_prepend_blanks behind
  refine ⟨front ++ ['='] ++ blanks, ?_, ?_⟩
  · conv_lhs => rw [hbehind]
    simp
  · exact (endsApart_concat (not_isWordPart_of_mem (by decide)) front).append (endsApart_of_allBlank hblank)

theorem isFound_of_mem_constantNamings (h : naming ∈ constantNamings text) : naming.IsFound text := by
  rcases List.mem_append.1 h with hname | hvalue
  · split at hname
    · cases hname
    · next hsome =>
      cases List.mem_singleton.1 hname
      refine .exact ⟨[], text.dropWhile isIdentifierChar, ⟨?_, rfl⟩, endsApart_nil, ?_⟩ ?_
      · exact List.takeWhile_append_dropWhile.symm
      · exact beginsApart_dropWhile (fun _ ↦ isIdentifierChar_of_isWordPart) text
      · exact fun hnil ↦ hsome (List.isEmpty_iff.2 hnil)
  · have hsplit : text.takeWhile (· != '=') ++ text.dropWhile (· != '=') = text :=
      List.takeWhile_append_dropWhile
    have hsign := List.head?_dropWhile_not (· != '=') text
    cases hrest : text.dropWhile (· != '=') with
    | nil =>
      rw [hrest] at hvalue
      cases hvalue
    | cons c behind =>
      rw [hrest] at hvalue hsplit hsign
      obtain rfl : c = '=' := by simpa using hsign
      have hlead : LeadsTo text (trimStart behind) := hsplit ▸ leadsTo_behind_equals
      exact isFound_of_mem_namingsIn hlead.isApart hvalue fun _ ↦ isFound_of_mem_expressionNamings

theorem isFound_of_mem_targetNamings (h : naming ∈ targetNamings text) : naming.IsFound text := by
  unfold targetNamings at h
  split at h
  · next name hplain =>
    cases List.mem_singleton.1 h
    obtain ⟨⟨taken, rest⟩, htaken, hname⟩ := Option.bind_eq_some_iff.1 hplain
    obtain ⟨-, heq⟩ := Option.ite_none_right_eq_some.1 hname
    cases heq
    obtain ⟨htext, hrest, hne⟩ := append_of_takeName htaken
    exact .exact ⟨[], rest, ⟨htext, rfl⟩, endsApart_nil, hrest⟩ hne
  · exact isFound_of_mem_expressionNamings h

/-! ### Headers of members -/

theorem leadsTo_takeAccess (text : List Char) : LeadsTo text (takeAccess text).2 := by
  unfold takeAccess
  split
  · next word rest hfound =>
    obtain ⟨known, -, hknown⟩ := List.exists_of_findSome?_eq_some hfound
    obtain ⟨behind, hbehind, heq⟩ := Option.map_eq_some_iff.1 hknown
    cases heq
    exact leadsTo_of_afterKeyword hbehind
  · exact .refl text

theorem isSuffix_of_takeWord {word : String} {taken : List Char}
    (h : takeWord word text = some (taken, rest)) : rest <:+ text := by
  obtain ⟨behind, hbehind, heq⟩ := Option.map_eq_some_iff.1 h
  cases heq
  obtain ⟨keyword, rfl, -⟩ := spells_of_afterWord hbehind
  exact List.suffix_append keyword _

theorem isSuffix_of_takeMemberWord {taken : List Char} (h : takeMemberWord text = some (taken, rest)) :
    rest <:+ text := by
  rcases Option.or_eq_some_iff.1 h with hsub | ⟨-, h⟩
  · exact isSuffix_of_takeWord hsub
  rcases Option.or_eq_some_iff.1 h with hfunction | ⟨-, h⟩
  · exact isSuffix_of_takeWord hfunction
  obtain ⟨behind, hbehind, hproperty⟩ := Option.bind_eq_some_iff.1 h
  obtain ⟨front, rfl, -⟩ := leadsTo_of_afterKeyword hbehind
  refine List.IsSuffix.trans ?_ (List.suffix_append front behind)
  rcases Option.or_eq_some_iff.1 hproperty with hget | ⟨-, hproperty⟩
  · exact isSuffix_of_takeWord hget
  rcases Option.or_eq_some_iff.1 hproperty with hlet | ⟨-, hset⟩
  · exact isSuffix_of_takeWord hlet
  · exact isSuffix_of_takeWord hset

/-- The parameter list ends at a closing parenthesis. -/
theorem append_of_parameterList? {list : List Char} {type : Option (List Char)}
    (h : parameterList? text = some (list, type)) : ∃ tail, text = list ++ ')' :: tail := by
  induction text generalizing list with
  | nil => cases h
  | cons c text ih =>
    have hlonger (h : (parameterList? text).map (fun pair ↦ (c :: pair.1, pair.2)) = some (list, type)) :
        ∃ tail, c :: text = list ++ ')' :: tail := by
      obtain ⟨⟨known, _⟩, hknown, heq⟩ := Option.map_eq_some_iff.1 h
      cases heq
      obtain ⟨tail, htail⟩ := ih hknown
      exact ⟨tail, congrArg (c :: ·) htail⟩
    rw [parameterList?] at h
    dsimp only at h
    split at h
    · next hclosing =>
      split at h
      · cases h
        exact ⟨text, congrArg (· :: text) hclosing⟩
      · exact hlonger h
    · split at h
      · cases h
      · exact hlonger h

/-- The parameter list behind a name stands between parentheses. -/
theorem isApart_parameterSpan {front list : List Char} {type : Option (List Char)}
    (h : afterMemberName? rest = some (some list, type)) :
    IsApart (parameterSpan (front ++ rest) rest list) (front ++ rest) := by
  obtain ⟨suffix, hsuffix, hcases⟩ := exists_append_skipTypeSuffix rest
  obtain ⟨blanks, hblanks, hblank⟩ := trimStart_prepend_blanks (skipTypeSuffix rest)
  unfold afterMemberName? at h
  split at h
  · next inner hopening =>
    obtain ⟨⟨known, _⟩, hlist, heq⟩ := Option.map_eq_some_iff.1 h
    cases heq
    obtain ⟨tail, rfl⟩ := append_of_parameterList? hlist
    have hrest : rest = (suffix ++ blanks) ++ '(' :: (list ++ ')' :: tail) := by
      conv_lhs => rw [hsuffix, hblanks, hopening, ← List.append_assoc]
    have hplain : ∀ c ∈ suffix ++ blanks, (c != '(') = true := by
      intro c hc
      rw [bne_iff_ne]
      rintro rfl
      rcases List.mem_append.1 hc with hin | hin
      · rcases hcases with rfl | ⟨mark, rfl, hmark⟩
        · cases hin
        · cases List.mem_singleton.1 hin
          cases hmark
      · exact absurd (List.all_eq_true.1 hblank _ hin) (by decide)
    have hopeningText : rest.takeWhile (· != '(') = suffix ++ blanks := by
      rw [hrest, List.takeWhile_append_of_pos hplain, List.takeWhile_cons_of_neg (by decide),
        List.append_nil]
    refine ⟨front ++ (suffix ++ blanks) ++ ['('], ')' :: tail, ⟨?_, ?_⟩, ?_, ?_⟩
    · rw [hrest]
      simp [parameterSpan]
    · rw [parameterSpan, hopeningText]
      simp only [byteLength_append, byteLength_cons, byteLength_nil]
      have hopening : ('(').utf8Size = 1 := rfl
      omega
    · exact endsApart_concat (not_isWordPart_of_mem (by decide)) _
    · exact beginsApart_cons (not_isWordPart_of_mem (by decide)) tail
  · obtain ⟨_, -, heq⟩ := Option.map_eq_some_iff.1 h
    cases heq

/-- A name gives up its last two letters only if they are the word `As` before a blank. -/
theorem beginsWithAs_of_resultType? {type : List Char} (hname : IsName name) (hlong : 3 ≤ name.length)
    (h : resultType? (name.drop (name.length - 2) ++ rest) = some type) :
    BeginsWithAs (name.drop (name.length - 2) ++ rest) := by
  obtain ⟨first, more, hcons⟩ : ∃ first more, name.drop (name.length - 2) = first :: more := by
    apply List.exists_cons_of_ne_nil
    rw [ne_eq, List.drop_eq_nil_iff]
    omega
  have hfirst : first ∈ name.drop (name.length - 2) := by
    rw [hcons]
    exact List.mem_cons_self
  have hsolid : BeginsSolid (name.drop (name.length - 2) ++ rest) :=
    ⟨first, more ++ rest, by rw [hcons]; rfl, hname.not_isBlank (List.mem_of_mem_drop hfirst)⟩
  unfold resultType? at h
  rw [hsolid.trimStart_eq] at h
  obtain ⟨clause, hclause, h⟩ := Option.bind_eq_some_iff.1 h
  obtain ⟨behind, hbehind, -⟩ := Option.bind_eq_some_iff.1 h
  obtain ⟨word, htext, hword⟩ := spells_of_afterWord hclause
  obtain ⟨blanks, rfl, hne, hblank⟩ := blanks_of_afterBlanks hbehind
  obtain ⟨blank, blanks, rfl⟩ := List.exists_cons_of_ne_nil hne
  exact ⟨word, _, htext, hword, blank, rfl, List.all_eq_true.1 hblank blank List.mem_cons_self⟩

/-- A name that gives up its last two letters is found in front of them. -/
theorem isFound_of_resultType? {front type : List Char} {offset : Nat} (hfront : EndsApart front)
    (hoffset : offset = byteLength front) (hname : IsName name) (hlong : 3 ≤ name.length)
    (h : resultType? (name.drop (name.length - 2) ++ rest) = some type) :
    (Naming.exact ⟨name.take (name.length - 2), offset⟩).IsFound (front ++ (name ++ rest)) := by
  have hparts : name.take (name.length - 2) ++ name.drop (name.length - 2) = name :=
    List.take_append_drop _ name
  have hsplits : Span.Splits ⟨name.take (name.length - 2), offset⟩ (front ++ (name ++ rest)) front
      (name.drop (name.length - 2) ++ rest) := by
    refine ⟨?_, hoffset⟩
    conv_lhs => rw [← hparts]
    simp only [List.append_assoc]
  have hlength : (name.take (name.length - 2)).length = name.length - 2 :=
    List.length_take_of_le (Nat.sub_le ..)
  exact
    { stands := ⟨_, _, hsplits, .inl hfront, .inr (beginsWithAs_of_resultType? hname hlong h)⟩
      within := ⟨_, _, hsplits⟩
      inside := ⟨[], [], (List.append_nil _).symm, rfl⟩
      ne_nil := List.ne_nil_of_length_pos (by rw [Naming.exact, hlength]; omega) }

/-- The name of a member and its parameter list stand where the header is read. -/
theorem isFound_of_signature? {signature : Signature} (h : signature? text = some signature) :
    (Naming.exact signature.name).IsFound text ∧ ∀ list ∈ signature.parameters, IsApart list text := by
  obtain ⟨⟨kind, afterMember⟩, hmember, h⟩ := Option.bind_eq_some_iff.1 h
  obtain ⟨⟨name, rest⟩, hname, h⟩ := Option.bind_eq_some_iff.1 h
  obtain ⟨taken, hblanks, hname⟩ := Option.bind_eq_some_iff.1 hname
  have hlead : LeadsTo text taken := by
    obtain ⟨front, htext, -⟩ := (leadsTo_takeAccess text).trans (leadsTo_skipOneOf ["static"] _)
    obtain ⟨middle, hmiddle⟩ := isSuffix_of_takeMemberWord hmember
    have hwhole : text = (front ++ middle) ++ afterMember :=
      htext.trans ((congrArg (front ++ ·) hmiddle.symm).trans (List.append_assoc ..).symm)
    exact hwhole ▸ leadsTo_of_afterBlanks (front ++ middle) hblanks
  obtain ⟨front, rfl, hfront⟩ := hlead
  obtain ⟨rfl, -, hne⟩ := append_of_takeName hname
  have hapart := isApart_of_takeName ⟨front, rfl, hfront⟩ hname
  dsimp only at h
  split at h
  · next list? type htype =>
    cases h
    refine ⟨.exact hapart hne, fun list hlist ↦ ?_⟩
    obtain ⟨inner, hinner, rfl⟩ := Option.map_eq_some_iff.1 hlist
    obtain ⟨rfl, -⟩ := Option.filter_eq_some_iff.1 hinner
    rw [← List.append_assoc]
    exact isApart_parameterSpan htype
  · split at h
    · cases h
    · next hlong =>
      obtain ⟨type, htype, h⟩ := Option.bind_eq_some_iff.1 h
      cases h
      refine ⟨isFound_of_resultType? hfront ?_ (isName_of_takeName hname) (by omega) htype, nofun⟩
      simp only [spanBefore, byteLength_append]
      omega

/-! ### Statements -/

theorem isFound_of_blockStart? {kind : Tree.NodeKind} (h : blockStart? text = some (kind, span)) :
    (Naming.exact span).IsFound text := by
  obtain ⟨⟨word, behind⟩, hword, h⟩ := Option.bind_eq_some_iff.1 h
  obtain ⟨⟨name, rest⟩, hname, h⟩ := Option.bind_eq_some_iff.1 h
  obtain ⟨-, heq⟩ := Option.ite_none_right_eq_some.1 h
  cases heq
  have hlead : LeadsTo text behind := by
    refine (leadsTo_skipOneOf ["public", "private"] text).trans ?_
    rcases Option.or_eq_some_iff.1 hword with htype | ⟨-, henum⟩
    · obtain ⟨_, hkeyword, heq⟩ := Option.map_eq_some_iff.1 htype
      cases heq
      exact leadsTo_of_afterKeyword hkeyword
    · obtain ⟨_, hkeyword, heq⟩ := Option.map_eq_some_iff.1 henum
      cases heq
      exact leadsTo_of_afterKeyword hkeyword
  exact .exact (isApart_of_takeName hlead hname) (append_of_takeName hname).2.2

theorem isApart_of_constantList? (h : constantList? text = some span) : IsApart span text := by
  obtain ⟨list, hlist, h⟩ := Option.bind_eq_some_iff.1 h
  obtain ⟨-, heq⟩ := Option.ite_none_left_eq_some.1 h
  cases heq
  exact ((leadsTo_skipOneOf _ text).trans (leadsTo_of_afterKeyword hlist)).isApart

/-- The list of a variable statement stands apart from the words in front of it. -/
theorem isApart_of_variableList? (h : variableList? text = some span) : IsApart span text := by
  obtain ⟨list, hlist, h⟩ := Option.bind_eq_some_iff.1 h
  obtain ⟨-, heq⟩ := Option.ite_none_left_eq_some.1 h
  cases heq
  exact (leadsTo_of_afterOneOf hlist).isApart

theorem isApart_of_callExpression? (h : callExpression? text = some span) : IsApart span text := by
  obtain ⟨list, hlist, h⟩ := Option.bind_eq_some_iff.1 h
  obtain ⟨-, heq⟩ := Option.ite_none_left_eq_some.1 h
  cases heq
  exact (leadsTo_of_afterKeyword hlist).isApart

/-- Both sides of an assignment stand apart. -/
theorem isApart_of_isCut {assignment : Assignment} {lead gap behind : List Char}
    (h : assignment.IsCut text lead gap behind) :
    IsApart assignment.target text ∧ IsApart assignment.value text := by
  have hlead : EndsApart lead := by
    cases h.isLead with
    | empty => exact endsApart_nil
    | keyword hword spelled hne hblank => exact (endsApart_of_allBlank hblank).append_of_ne_nil hne _
  refine ⟨⟨lead, gap ++ '=' :: behind, ⟨?_, h.target_offset⟩, hlead, ?_⟩, ?_⟩
  · rw [h.text_eq, List.append_assoc _ gap]
  · exact (beginsApart_of_allBlank h.gap_blank).append
      (beginsApart_cons (not_isWordPart_of_mem (by decide)) _)
  · have hvalue : LeadsTo text (trimStart behind) := by
      rw [h.text_eq]
      exact leadsTo_behind_equals
    rw [h.value_eq]
    exact hvalue.isApart

/-- The names and words of a statement are found where its form says. -/
theorem isFound_of_mem_namingsOf (h : naming ∈ namingsOf text) : naming.IsFound text := by
  have hwhole (h : naming ∈ namingsIn ⟨text, 0⟩ expressionNamings) : naming.IsFound text :=
    isFound_of_mem_namingsIn (isApart_whole text) h fun _ ↦ isFound_of_mem_expressionNamings
  have hassignment {assignment : Assignment}
      (hcut : ∃ lead gap behind, assignment.IsCut text lead gap behind)
      (h : naming ∈ namingsIn assignment.target targetNamings ++
        namingsIn assignment.value expressionNamings) : naming.IsFound text := by
    obtain ⟨lead, gap, behind, hcut⟩ := hcut
    obtain ⟨htarget, hvalue⟩ := isApart_of_isCut hcut
    rcases List.mem_append.1 h with hin | hin
    · exact isFound_of_mem_namingsIn htarget hin fun _ ↦ isFound_of_mem_targetNamings
    · exact isFound_of_mem_namingsIn hvalue hin fun _ ↦ isFound_of_mem_expressionNamings
  unfold namingsOf shapeOf at h
  split at h
  · cases h
  split at h
  · cases h
  split at h
  · exact hwhole h
  split at h
  · next signature hsignature =>
    obtain ⟨hname, hparameters⟩ := isFound_of_signature? hsignature
    rcases List.mem_cons.1 h with rfl | hparameter
    · exact hname
    · cases hlist : signature.parameters with
      | none =>
        rw [hlist] at hparameter
        cases hparameter
      | some list =>
        rw [hlist] at hparameter
        exact isFound_of_mem_listNamings (hparameters list hlist) hparameter
          fun _ htrim _ ↦ isFound_of_mem_parameterNamings htrim
  split at h
  · exact hwhole h
  split at h
  · next kind name hblock =>
    cases List.mem_singleton.1 h
    exact isFound_of_blockStart? hblock
  split at h
  · cases h
  split at h
  · next list hlist =>
    exact isFound_of_mem_listNamings (isApart_of_constantList? hlist) h
      fun _ _ _ ↦ isFound_of_mem_constantNamings
  split at h
  · next list hlist =>
    exact isFound_of_mem_listNamings (isApart_of_variableList? hlist) h
      fun _ htrim _ ↦ isFound_of_mem_variableNamings htrim
  split at h
  · next hset => exact hassignment (exists_isCut_of_keywordAssignment? (by simp) hset) h
  split at h
  · next hlet => exact hassignment (exists_isCut_of_keywordAssignment? (by simp) hlet) h
  split at h
  · next hplain => exact hassignment (exists_isCut_of_plainAssignment? hplain) h
  split at h
  · next expression hcall =>
    exact isFound_of_mem_namingsIn (isApart_of_callExpression? hcall) h
      fun _ ↦ isFound_of_mem_expressionNamings
  · exact hwhole h

end VbaLint.Statement
