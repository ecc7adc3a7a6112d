import VbaLint.Proofs.Statement.Items
import VbaLint.Proofs.Statement.ParameterForm

/-!
# Written lists of parameters

Parameters with commas between them, as they stand between the parentheses of a header. Taking the
items of the list gives the parameters back. Where the list ends is read off what is behind a closing
parenthesis: the end of a header does not begin with a comma or with another parenthesis, but it may
begin with the type of a parameter that is an array.
-/

namespace VbaLint.Statement

open Text

/-! ## The text of a list -/

def listText (texts : List (List Char)) : List Char := ", ".toList.intercalate texts

theorem listText_singleton (text : List Char) : listText [text] = text := by
  simp [listText]

theorem listText_cons_cons (text next : List Char) (rest : List (List Char)) :
    listText (text :: next :: rest) = text ++ (", ".toList ++ listText (next :: rest)) := by
  simp [listText, List.intercalate]

theorem listText_append_cons (texts : List (List Char)) (next : List Char)
    (rest : List (List Char)) :
    listText (texts ++ next :: rest) =
      (texts.flatMap fun text ↦ text ++ ", ".toList) ++ listText (next :: rest) := by
  induction texts with
  | nil => rfl
  | cons text texts ih =>
    have hstep : listText (text :: (texts ++ next :: rest)) =
        text ++ (", ".toList ++ listText (texts ++ next :: rest)) := by
      cases texts with
      | nil => exact listText_cons_cons ..
      | cons => exact listText_cons_cons ..
    rw [List.cons_append, hstep, ih, List.flatMap_cons]
    simp only [List.append_assoc]

theorem listText_cons (text : List Char) (rest : List (List Char)) :
    listText (text :: rest) = text ++ listText ([] :: rest) := by
  cases rest with
  | nil => rw [listText_singleton, listText_singleton, List.append_nil]
  | cons next rest => rw [listText_cons_cons, listText_cons_cons, List.nil_append]

theorem mem_listText {texts : List (List Char)} {c : Char} (h : c ∈ listText texts) :
    c ∈ ", ".toList ∨ ∃ text ∈ texts, c ∈ text := by
  induction texts with
  | nil => cases h
  | cons text rest ih =>
    cases rest with
    | nil => exact .inr ⟨text, List.mem_cons_self, listText_singleton text ▸ h⟩
    | cons next rest =>
      rw [listText_cons_cons, List.mem_append, List.mem_append] at h
      rcases h with h | h | h
      · exact .inr ⟨text, List.mem_cons_self, h⟩
      · exact .inl h
      · refine (ih h).imp_right ?_
        rintro ⟨other, hother, hc⟩
        exact ⟨other, List.mem_cons_of_mem _ hother, hc⟩

theorem beginsSolid_listText {text : List Char} (h : BeginsSolid text) (rest : List (List Char)) :
    BeginsSolid (listText (text :: rest)) := by
  rw [listText_cons]
  exact h.append _

/-! ## The items of a list -/

/-- The text goes into one piece of a list. -/
def IsItem (text : List Char) : Prop :=
  ∀ rest, itemPieces 0 false (text ++ rest) = text.foldr consPiece (itemPieces 0 false rest)

/-- Characters without a meaning in a list go into one piece. -/
theorem isItem_of_unmarked {text : List Char} (h : ∀ c ∈ text, c ≠ ',' ∧ c ≠ '"' ∧ c ≠ '(' ∧ c ≠ ')') :
    IsItem text := by
  intro rest
  induction text with
  | nil => rfl
  | cons c text ih =>
    obtain ⟨⟨hcomma, hquote, hopening, hclosing⟩, htext⟩ := List.forall_mem_cons.1 h
    rw [List.cons_append, itemPieces, List.foldr_cons, ← ih htext]
    simp [hcomma, hquote, hopening, hclosing, depthAfter]

theorem isItem_of_isPlain {text : List Char} (h : ∀ c ∈ text, isPlain c = true) : IsItem text := by
  refine isItem_of_unmarked fun c hc ↦ ?_
  obtain ⟨hcomma, hquote, hopening, hclosing, -⟩ := isPlain_iff.1 (h c hc)
  exact ⟨hcomma, hquote, hopening, hclosing⟩

theorem isItem_parentheses : IsItem "()".toList := by
  intro rest
  simp [itemPieces, depthAfter]

/-- Two texts that go into one piece do so one behind the other. -/
theorem IsItem.append {left right : List Char} (hleft : IsItem left) (hright : IsItem right) :
    IsItem (left ++ right) := by
  intro rest
  rw [List.append_assoc, hleft, hright, List.foldr_append]

theorem ParameterForm.isItem_text (form : ParameterForm) : IsItem form.text := by
  have hfront : IsItem form.front := isItem_of_isPlain fun c hc ↦ form.isPlain_of_mem_front hc
  have hclause : IsItem form.clause := isItem_of_isPlain fun c hc ↦ form.isPlain_of_mem_clause hc
  rw [form.text_eq, ParameterForm.behind]
  refine hfront.append (IsItem.append ?_ hclause)
  split
  · exact isItem_parentheses
  · exact isItem_of_isPlain (by simp)

theorem itemPieces_listText {text : List Char} {rest : List (List Char)} (htext : IsItem text)
    (hrest : ∀ next ∈ rest, IsItem next) :
    itemPieces 0 false (listText (text :: rest)) = text :: rest.map (' ' :: ·) := by
  induction rest generalizing text with
  | nil =>
    have hend := htext []
    rw [List.append_nil, itemPieces, foldr_consPiece, List.append_nil] at hend
    rw [listText_singleton, hend, List.map_nil]
  | cons next rest ih =>
    obtain ⟨hnext, hlater⟩ := List.forall_mem_cons.1 hrest
    have hcomma : itemPieces 0 false (", ".toList ++ listText (next :: rest)) =
        [] :: consPiece ' ' (itemPieces 0 false (listText (next :: rest))) := by
      simp [itemPieces, depthAfter]
    rw [listText_cons_cons, htext, hcomma, foldr_consPiece, List.append_nil, ih hnext hlater]
    rfl

/-- Locating the pieces trims them and leaves out the empty ones. -/
theorem map_text_locatePieces (offset : Nat) (pieces : List (List Char)) :
    (locatePieces offset pieces).map (·.text) = (pieces.map trim).filter (· ≠ []) := by
  induction pieces generalizing offset with
  | nil => rfl
  | cons piece pieces ih =>
    rw [locatePieces, List.map_cons, List.filter_cons]
    by_cases hempty : trim piece = []
    · simp [hempty, ih]
    · simp [hempty, ih]

/-- The items of a list of parameters are the parameters. -/
theorem map_text_items_listText (forms : List ParameterForm) :
    (items (listText (forms.map (·.text)))).map (·.text) = forms.map (·.text) := by
  cases forms with
  | nil => rfl
  | cons form forms =>
    have hitems : ∀ text ∈ forms.map (·.text), IsItem text := by
      simpa using fun other _ ↦ other.isItem_text
    have hspaced : (fun form : ParameterForm ↦ trim (' ' :: form.text)) = (·.text) := by
      funext form
      exact form.trim_text
    have hsolid : ∀ text ∈ (form :: forms).map (·.text), text ≠ [] := by
      simp only [List.mem_map]
      rintro _ ⟨other, -, rfl⟩
      obtain ⟨first, rest, hfirst, -⟩ := other.beginsSolid_text
      simp [hfirst]
    rw [items_eq, map_text_locatePieces, List.map_cons, itemPieces_listText form.isItem_text hitems]
    rw [List.map_cons, List.map_map, List.map_map, form.trim_text]
    change ((form.text :: forms.map fun form ↦ trim (' ' :: form.text)).filter _) = _
    rw [hspaced]
    exact List.filter_eq_self.2 (by simpa using hsolid)

/-! ## Where a list ends -/

/-- What is read of a list and of the end of the header, with some text in front of the list. -/
def inFront (text : List Char) (read : List Char × Option (List Char)) :
    List Char × Option (List Char) :=
  (text ++ read.1, read.2)

theorem inFront_append (left right : List Char) (read : List Char × Option (List Char)) :
    inFront (left ++ right) read = inFront left (inFront right read) := by
  rw [inFront, inFront, inFront, List.append_assoc]

theorem parameterList?_cons {c : Char} (hclosing : c ≠ ')') (hline : c ≠ '\n') (rest : List Char) :
    parameterList? (c :: rest) = (parameterList? rest).map (inFront [c]) := by
  rw [parameterList?, if_neg hclosing, if_neg hline]
  rfl

theorem parameterList?_append {text : List Char} (h : ∀ c ∈ text, c ≠ ')' ∧ c ≠ '\n')
    (rest : List Char) :
    parameterList? (text ++ rest) = (parameterList? rest).map (inFront text) := by
  induction text with
  | nil =>
    have hid : inFront [] = id := by funext read; rfl
    rw [List.nil_append, hid, Option.map_id, id]
  | cons c text ih =>
    obtain ⟨⟨hclosing, hline⟩, htext⟩ := List.forall_mem_cons.1 h
    have hcompose : inFront [c] ∘ inFront text = inFront (c :: text) := by funext read; rfl
    rw [List.cons_append, parameterList?_cons hclosing hline, ih htext, Option.map_map, hcompose]

theorem parameterList?_plain {text : List Char} (h : ∀ c ∈ text, isPlain c = true)
    (rest : List Char) : parameterList? (text ++ rest) = (parameterList? rest).map (inFront text) := by
  refine parameterList?_append (fun c hc ↦ ?_) rest
  obtain ⟨-, -, -, hclosing, hline⟩ := isPlain_iff.1 (h c hc)
  exact ⟨hclosing, hline⟩

theorem parameterList?_of_end {rest : List Char} {type : Option (List Char)}
    (h : signatureEnd? rest = some type) : parameterList? (')' :: rest) = some ([], type) := by
  rw [parameterList?, if_pos rfl, h]

theorem parameterList?_of_no_end {rest : List Char} (h : signatureEnd? rest = none) :
    parameterList? (')' :: rest) = (parameterList? rest).map (inFront [')']) := by
  rw [parameterList?, if_pos rfl, h]
  rfl

/-- What follows goes on with the list, or closes it. -/
def GoesOn (rest : List Char) : Prop := ∃ c more, rest = c :: more ∧ (c = ',' ∨ c = ')')

/-- No header ends where a list goes on. -/
theorem signatureEnd?_of_goesOn {rest : List Char} (h : GoesOn rest) : signatureEnd? rest = none := by
  obtain ⟨c, more, rfl, hc⟩ := h
  rcases hc with rfl | rfl
  · rfl
  · rfl

/-- A clause with a type ends a header, whatever the type. -/
theorem signatureEnd?_as {type : List Char} (hbegin : BeginsSolid type) (hend : EndsSolid type)
    (hline : '\n' ∉ type) : signatureEnd? (" As ".toList ++ type) = some (some type) := by
  have hne : type ≠ [] := by
    obtain ⟨first, rest, rfl, -⟩ := hbegin
    exact List.cons_ne_nil _ _
  have hread : resultType? (" As ".toList ++ type) = some type := by
    have hblanks : resultType? (" As ".toList ++ type) =
        if trimStart type = [] then
          if ((" ".toList ++ type).drop 1).any (· != '\n') then some [] else none
        else if (trimEnd (trimStart type)).contains '\n' then none
        else some (trimEnd (trimStart type)) := rfl
    rw [hblanks, hbegin.trimStart_eq, hend.trimEnd_eq, if_neg hne, if_neg (by simpa using hline)]
  rw [signatureEnd?, hread]

namespace ParameterForm

variable (form : ParameterForm)

/-- The text of a parameter that is an array, up to the closing parenthesis. -/
def opening (form : ParameterForm) : List Char := form.front ++ ['(']

theorem parameterList?_front (rest : List Char) :
    parameterList? (form.front ++ rest) = (parameterList? rest).map (inFront form.front) :=
  parameterList?_plain (fun _ ↦ form.isPlain_of_mem_front) rest

theorem parameterList?_clause (rest : List Char) :
    parameterList? (form.clause ++ rest) = (parameterList? rest).map (inFront form.clause) :=
  parameterList?_plain (fun _ ↦ form.isPlain_of_mem_clause) rest

theorem parameterList?_opening (rest : List Char) :
    parameterList? (form.opening ++ rest) = (parameterList? rest).map (inFront form.opening) := by
  have hstep : parameterList? ('(' :: rest) = (parameterList? rest).map (inFront ['(']) :=
    parameterList?_cons (by decide) (by decide) rest
  have hcompose : inFront form.front ∘ inFront ['('] = inFront form.opening := by
    funext read
    exact (inFront_append _ _ read).symm
  calc
    parameterList? (form.opening ++ rest) = parameterList? (form.front ++ '(' :: rest) := by
      rw [opening, List.append_assoc]
      rfl
    _ = (parameterList? rest).map (inFront form.front ∘ inFront ['(']) := by
      rw [parameterList?_front, hstep, Option.map_map]
    _ = (parameterList? rest).map (inFront form.opening) := by
      rw [hcompose]

theorem text_of_array (h : form.isArray = true) : form.text = form.opening ++ ')' :: form.clause := by
  rw [form.text_eq, behind, h, opening]
  simp

theorem text_of_not_array (h : form.isArray = false) : form.text = form.front ++ form.clause := by
  rw [form.text_eq, behind, h]
  simp

theorem clause_of_no_type (h : form.type = none) : form.clause = [] := by
  rw [clause, h, Option.elim_none]

theorem clause_of_type {type : TypeName} (h : form.type = some type) :
    form.clause = " As ".toList ++ type.text := by
  rw [clause, h, Option.elim_some]

theorem ne_line_of_mem_text {c : Char} (h : c ∈ form.text) : c ≠ '\n' := by
  have hplain {c : Char} (h : isPlain c = true) : c ≠ '\n' := (isPlain_iff.1 h).2.2.2.2
  rw [form.text_eq, behind, List.mem_append, List.mem_append] at h
  rcases h with h | h | h
  · exact hplain (form.isPlain_of_mem_front h)
  · split at h
    · rintro rfl
      simp at h
    · cases h
  · exact hplain (form.isPlain_of_mem_clause h)

/-- A list goes on behind a parameter, unless that is an array with a type. -/
theorem parameterList?_text (hform : form.isTypedArray = false) {rest : List Char}
    (hgoes : GoesOn rest) :
    parameterList? (form.text ++ rest) = (parameterList? rest).map (inFront form.text) := by
  cases harray : form.isArray with
  | true =>
    have htype : form.type = none := by simpa [isTypedArray, harray] using hform
    have hcompose : inFront form.opening ∘ inFront [')'] = inFront form.text := by
      funext read
      rw [form.text_of_array harray, form.clause_of_no_type htype]
      exact (inFront_append _ _ read).symm
    have htext : form.text ++ rest = form.opening ++ ')' :: rest := by
      rw [form.text_of_array harray, form.clause_of_no_type htype, List.append_assoc]
      rfl
    rw [htext, parameterList?_opening,
      parameterList?_of_no_end (signatureEnd?_of_goesOn hgoes), Option.map_map, hcompose]
  | false =>
    have hcompose : inFront form.front ∘ inFront form.clause = inFront form.text := by
      funext read
      rw [form.text_of_not_array harray]
      exact (inFront_append _ _ read).symm
    rw [form.text_of_not_array harray, List.append_assoc, parameterList?_front,
      parameterList?_clause, Option.map_map, hcompose, form.text_of_not_array harray]

/-- A list ends in the parentheses of an array that has a type, and the header with it. -/
theorem parameterList?_typedArray (harray : form.isArray = true) {type : TypeName}
    (htype : form.type = some type) {rest : List Char} (hend : EndsSolid rest)
    (hline : '\n' ∉ rest) :
    parameterList? (form.text ++ rest) = some (form.opening, some (type.text ++ rest)) := by
  have htail : '\n' ∉ type.text ++ rest := by
    rw [List.mem_append, not_or]
    exact ⟨type.not_mem_text rfl, hline⟩
  have hends := signatureEnd?_as (type.beginsSolid.append rest) (hend.append type.text) htail
  have htext : form.text ++ rest = form.opening ++ ')' :: (" As ".toList ++ (type.text ++ rest)) := by
    rw [form.text_of_array harray, form.clause_of_type htype, List.append_assoc, List.cons_append,
      List.append_assoc]
  rw [htext, parameterList?_opening, parameterList?_of_end hends, Option.map_some, inFront,
    List.append_nil]

end ParameterForm

/-- Reading goes on behind parameters with commas after them, if none is an array with a type. -/
theorem parameterList?_flatMap {forms : List ParameterForm}
    (hforms : ∀ form ∈ forms, form.isTypedArray = false) (rest : List Char) :
    parameterList? ((forms.flatMap fun form ↦ form.text ++ ", ".toList) ++ rest) =
      (parameterList? rest).map (inFront (forms.flatMap fun form ↦ form.text ++ ", ".toList)) := by
  have hcomma (rest : List Char) : parameterList? (", ".toList ++ rest) =
      (parameterList? rest).map (inFront ", ".toList) :=
    parameterList?_append (by simp) rest
  induction forms with
  | nil => exact parameterList?_append (by simp) rest
  | cons form forms ih =>
    obtain ⟨hform, hlater⟩ := List.forall_mem_cons.1 hforms
    -- The comma behind each parameter is what keeps the header from ending in it.
    let later := forms.flatMap fun form ↦ form.text ++ ", ".toList
    have hgoes : GoesOn (", ".toList ++ (later ++ rest)) := ⟨',', _, rfl, .inl rfl⟩
    have hcompose : (inFront form.text ∘ inFront ", ".toList) ∘ inFront later =
        inFront (form.text ++ ", ".toList ++ later) := by
      funext read
      rw [inFront_append, inFront_append]
      rfl
    rw [List.flatMap_cons]
    calc
      parameterList? (form.text ++ ", ".toList ++ later ++ rest)
        = parameterList? (form.text ++ (", ".toList ++ (later ++ rest))) := by
        simp only [List.append_assoc]
      _ = (parameterList? (later ++ rest)).map (inFront form.text ∘ inFront ", ".toList) := by
        rw [form.parameterList?_text hform hgoes, hcomma, Option.map_map]
      _ = (parameterList? rest).map (inFront (form.text ++ ", ".toList ++ later)) := by
        rw [ih hlater, Option.map_map, hcompose]

/-- A list without an array that has a type is read up to its own closing parenthesis. -/
theorem parameterList?_listText {forms : List ParameterForm}
    (hforms : ∀ form ∈ forms, form.isTypedArray = false) {ending : List Char}
    {type : Option (List Char)} (hending : signatureEnd? ending = some type) :
    parameterList? (listText (forms.map (·.text)) ++ ')' :: ending) =
      some (listText (forms.map (·.text)), type) := by
  have hclosed : parameterList? (')' :: ending) = some ([], type) := parameterList?_of_end hending
  rcases List.eq_nil_or_concat forms with rfl | ⟨init, last, rfl⟩
  · exact hclosed
  · have hlast : last.isTypedArray = false := hforms last (by simp)
    have hinit : ∀ form ∈ init, form.isTypedArray = false := fun form h ↦ hforms form (by simp [h])
    have hgoes : GoesOn (')' :: ending) := ⟨')', ending, rfl, .inr rfl⟩
    have htext : listText ((init ++ [last]).map (·.text)) =
        (init.flatMap fun form ↦ form.text ++ ", ".toList) ++ last.text := by
      rw [List.map_append, List.map_singleton, listText_append_cons, listText_singleton,
        List.flatMap_map]
    rw [List.concat_eq_append, htext, List.append_assoc, parameterList?_flatMap hinit,
      last.parameterList?_text hlast hgoes, hclosed]
    simp [inFront]

/-- A list with an array goes on behind the opening parenthesis of that. -/
theorem listText_of_array (before after : List ParameterForm) {form : ParameterForm}
    (harray : form.isArray = true) :
    listText ((before ++ form :: after).map (·.text)) =
      listText (before.map (·.text) ++ [form.opening]) ++
        ')' :: (form.clause ++ listText ([] :: after.map (·.text))) := by
  rw [List.map_append, List.map_cons, listText_append_cons, listText_append_cons, listText_cons,
    listText_singleton, form.text_of_array harray]
  simp only [List.append_assoc, List.cons_append]

/-- The first array that has a type cuts a list short: what is behind its parentheses is taken for the
result type. -/
theorem parameterList?_cut {before after : List ParameterForm} {form : ParameterForm}
    {type : TypeName} (hbefore : ∀ earlier ∈ before, earlier.isTypedArray = false)
    (harray : form.isArray = true) (htype : form.type = some type) {ending : List Char}
    (hend : EndsSolid (')' :: ending)) (hline : '\n' ∉ ending) :
    parameterList? (listText ((before ++ form :: after).map (·.text)) ++ ')' :: ending) =
      some (listText (before.map (·.text) ++ [form.opening]),
        some (listText (type.text :: after.map (·.text)) ++ ')' :: ending)) := by
  let later := listText ([] :: after.map (·.text)) ++ ')' :: ending
  have hlist : listText ((before ++ form :: after).map (·.text)) ++ ')' :: ending =
      (before.flatMap fun form ↦ form.text ++ ", ".toList) ++ (form.text ++ later) := by
    rw [List.map_append, List.map_cons, listText_append_cons, listText_cons, List.flatMap_map,
      List.append_assoc, List.append_assoc]
  have hcut : listText (before.map (·.text) ++ [form.opening]) =
      (before.flatMap fun form ↦ form.text ++ ", ".toList) ++ form.opening := by
    rw [listText_append_cons, listText_singleton, List.flatMap_map]
  have htype' : listText (type.text :: after.map (·.text)) ++ ')' :: ending = type.text ++ later := by
    rw [listText_cons, List.append_assoc]
  have hlater : '\n' ∉ later := by
    intro h
    rcases List.mem_append.1 h with h | h
    · rcases mem_listText h with hcomma | ⟨text, htext, hmem⟩
      · simp at hcomma
      · rcases List.mem_cons.1 htext with rfl | htext
        · cases hmem
        · obtain ⟨other, -, rfl⟩ := List.mem_map.1 htext
          exact other.ne_line_of_mem_text hmem rfl
    · rcases List.mem_cons.1 h with hclosing | h
      · cases hclosing
      · exact hline h
  rw [hlist, hcut, htype', parameterList?_flatMap hbefore,
    form.parameterList?_typedArray harray htype (hend.append _) hlater]
  rfl

end VbaLint.Statement
