import VbaLint.Proofs.Statement.ParameterList
import VbaLint.Statement.Shape

/-!
# Written headers of members

The plain written form of a header and what is read back of it: all that was written, unless a
parameter is an array with a type. The list ends in the parentheses of the first such parameter, and
all that is behind them is taken for the result type.
-/

namespace VbaLint.Statement

open Text Tree

/-! ## The words of a header -/

inductive Access where
  | shown
  | hidden
  | friend
  | global
  deriving DecidableEq, Repr

namespace Access

def word : Access → String
  | shown => "public"
  | hidden => "private"
  | friend => "friend"
  | global => "global"

def text : Access → List Char
  | shown => "Public ".toList
  | hidden => "Private ".toList
  | friend => "Friend ".toList
  | global => "Global ".toList

end Access

/-- What the words of a header say that it begins. -/
inductive MemberForm where
  | sub
  | function
  | propertyGet
  | propertyLet
  | propertySet
  deriving DecidableEq, Repr

namespace MemberForm

def kind : MemberForm → NodeKind
  | sub => .subStmt
  | function => .functionStmt
  | propertyGet => .propertyGetStmt
  | propertyLet => .propertyLetStmt
  | propertySet => .propertySetStmt

def text : MemberForm → List Char
  | sub => "Sub ".toList
  | function => "Function ".toList
  | propertyGet => "Property Get ".toList
  | propertyLet => "Property Let ".toList
  | propertySet => "Property Set ".toList

theorem takeMemberWord_append (member : MemberForm) (rest : List Char) :
    ∃ word, takeMemberWord (member.text ++ rest) = some (word, ' ' :: rest) ∧
      memberKind word = member.kind := by
  cases member with
  | sub => exact ⟨"Sub".toList, rfl, rfl⟩
  | function => exact ⟨"Function".toList, rfl, rfl⟩
  | propertyGet => exact ⟨"Get".toList, rfl, rfl⟩
  | propertyLet => exact ⟨"Let".toList, rfl, rfl⟩
  | propertySet => exact ⟨"Set".toList, rfl, rfl⟩

end MemberForm

structure ResultForm where
  type : TypeName
  isArray : Bool

namespace ResultForm

def text (result : ResultForm) : List Char :=
  result.type.text ++ if result.isArray then "()".toList else []

variable (result : ResultForm)

theorem beginsSolid : BeginsSolid result.text := result.type.beginsSolid.append _

theorem endsSolid : EndsSolid result.text := by
  unfold text
  cases result.isArray with
  | true => exact endsSolid_parentheses.append _
  | false => exact (List.append_nil result.type.text).symm ▸ result.type.endsSolid

theorem not_mem_text : '\n' ∉ result.text := by
  intro h
  rcases List.mem_append.1 h with h | h
  · exact result.type.not_mem_text rfl h
  · split at h
    · simp at h
    · cases h

end ResultForm

structure HeaderForm where
  access : Option Access
  isStatic : Bool
  member : MemberForm
  name : Identifier
  parameters : List ParameterForm
  result : Option ResultForm

namespace HeaderForm

def list (header : HeaderForm) : List Char := listText (header.parameters.map (·.text))

def ending (header : HeaderForm) : List Char :=
  header.result.elim [] fun result ↦ " As ".toList ++ result.text

def behind (header : HeaderForm) : List Char := '(' :: (header.list ++ ')' :: header.ending)

/-- The header without access and `Static`. -/
def named (header : HeaderForm) : List Char :=
  header.member.text ++ (header.name.text ++ header.behind)

def placed (header : HeaderForm) : List Char :=
  (if header.isStatic then "Static ".toList else []) ++ header.named

def text (header : HeaderForm) : List Char := header.access.elim [] (·.text) ++ header.placed

def front (header : HeaderForm) : List Char :=
  header.access.elim [] (·.text) ++
    ((if header.isStatic then "Static ".toList else []) ++ header.member.text)

/-- What is read of a header if `list` is taken for its list and `type` for its result type. -/
def reading (header : HeaderForm) (list : List Char) (type : Option (List Char)) : Signature where
  kind := header.member.kind
  name := ⟨header.name.text, byteLength header.front⟩
  isPublic := header.access != some .hidden
  parameters :=
    if allBlank list then none
    else some ⟨list, byteLength header.front + byteLength header.name.text + 1⟩
  asType := type

/-- What a header says: the list has a place unless there are no parameters. -/
def signature (header : HeaderForm) : Signature where
  kind := header.member.kind
  name := ⟨header.name.text, byteLength header.front⟩
  isPublic := header.access != some .hidden
  parameters :=
    if header.parameters.isEmpty then none
    else some ⟨header.list, byteLength header.front + byteLength header.name.text + 1⟩
  asType := header.result.map (·.text)

variable (header : HeaderForm)

/-- The name of a header stands between what is in front of it and what is behind it. -/
theorem text_eq : header.text = header.front ++ (header.name.text ++ header.behind) := by
  rw [text, placed, named, front]
  simp only [List.append_assoc]

/-! ### Reading the words -/

theorem beginsSolid_named : BeginsSolid header.named := by
  unfold named
  cases header.member <;> exact ⟨_, _, rfl, rfl⟩

theorem beginsSolid_placed : BeginsSolid header.placed := by
  unfold placed
  cases header.isStatic with
  | true => exact ⟨'S', _, rfl, rfl⟩
  | false => exact header.beginsSolid_named

theorem takeAccess_text : takeAccess header.text = (header.access.map (·.word), header.placed) := by
  unfold text
  cases header.access with
  | some access =>
    have hread : takeAccess (access.text ++ header.placed) =
        (some access.word, trimStart header.placed) := by
      cases access <;> rfl
    rw [Option.elim_some, hread, header.beginsSolid_placed.trimStart_eq, Option.map_some]
  | none =>
    unfold placed named
    cases header.isStatic with
    | true => rfl
    | false => cases header.member <;> rfl

theorem skip_placed : skipOneOf ["static"] header.placed = header.named := by
  unfold placed
  cases header.isStatic with
  | true => exact header.beginsSolid_named.trimStart_eq
  | false =>
    unfold named
    cases header.member <;> rfl

/-- A header is read as its list is, with all in front of the list as it was written. -/
theorem signature?_of_parameterList? {list : List Char} {type : Option (List Char)}
    (h : parameterList? (header.list ++ ')' :: header.ending) = some (list, type)) :
    signature? header.text = some (header.reading list type) := by
  obtain ⟨word, hword, hkind⟩ :=
    header.member.takeMemberWord_append (header.name.text ++ header.behind)
  have hname : takeName (header.name.text ++ header.behind) =
      some (header.name.text, header.behind) :=
    header.name.takeName_append (endsName_cons (by decide +kernel) _)
  have hblanks : afterBlanks (' ' :: (header.name.text ++ header.behind)) =
      some (header.name.text ++ header.behind) := by
    have hread : afterBlanks (' ' :: (header.name.text ++ header.behind)) =
        some (trimStart (header.name.text ++ header.behind)) := rfl
    rw [hread, (header.name.beginsSolid.append _).trimStart_eq]
  have hbehind : afterMemberName? header.behind = some (some list, type) := by
    have hread : afterMemberName? header.behind =
        (parameterList? (header.list ++ ')' :: header.ending)).map
          fun read ↦ (some read.1, read.2) := rfl
    rw [hread, h, Option.map_some]
  have hpublic : (header.access.map (·.word) != some "private") =
      (header.access != some .hidden) := by
    rcases header.access with _ | _ | _ | _ | _ <;> decide
  have hoffset : spanBefore header.text header.name.text header.behind =
      ⟨header.name.text, byteLength header.front⟩ := by
    rw [spanBefore, header.text_eq]
    congr 1
    simp only [byteLength_append]
    omega
  have hplace : parameterSpan header.text header.behind list =
      ⟨list, byteLength header.front + byteLength header.name.text + 1⟩ := by
    have hopening : header.behind.takeWhile (· != '(') = [] := rfl
    rw [parameterSpan, hopening, header.text_eq]
    congr 1
    simp only [byteLength_append, byteLength_nil]
    omega
  unfold signature?
  rw [header.takeAccess_text]
  dsimp only
  rw [header.skip_placed, named, hword]
  simp only [bind, Option.bind_some, hblanks, hname, hbehind, hkind, hpublic, hoffset]
  unfold reading
  cases hblank : allBlank list with
  | true => simp [Option.filter, hblank]
  | false => simp [Option.filter, hblank, hplace]

/-! ### Reading the list -/

theorem signatureEnd?_ending : signatureEnd? header.ending = some (header.result.map (·.text)) := by
  unfold ending
  cases header.result with
  | none => rfl
  | some result => exact signatureEnd?_as result.beginsSolid result.endsSolid result.not_mem_text

theorem not_mem_ending : '\n' ∉ header.ending := by
  unfold ending
  cases header.result with
  | none => simp
  | some result =>
    rw [Option.elim_some, List.mem_append, not_or]
    exact ⟨by decide, result.not_mem_text⟩

theorem endsSolid_closing : EndsSolid (')' :: header.ending) := by
  unfold ending
  cases header.result with
  | none => exact ⟨[], ')', rfl, rfl⟩
  | some result => exact result.endsSolid.append (')' :: " As ".toList)

theorem allBlank_list : allBlank header.list = header.parameters.isEmpty := by
  unfold list
  cases header.parameters with
  | nil => rfl
  | cons form forms => exact (beginsSolid_listText form.beginsSolid_text _).not_allBlank

/-- A header is read back if no parameter is an array with a type. -/
theorem signature?_text (h : ∀ form ∈ header.parameters, form.isTypedArray = false) :
    signature? header.text = some header.signature := by
  have hlist : parameterList? (header.list ++ ')' :: header.ending) =
      some (header.list, header.result.map (·.text)) :=
    parameterList?_listText h header.signatureEnd?_ending
  rw [header.signature?_of_parameterList? hlist, reading, header.allBlank_list, signature]

/-- The list that is read of a header whose parameters are `before`, then an array with a type. -/
def cutList (before : List ParameterForm) (form : ParameterForm) : List Char :=
  listText (before.map (·.text) ++ [form.opening])

/-- The result type that is read of a header whose parameters go on, behind an array of some type, with
`after`. -/
def cutType (header : HeaderForm) (type : TypeName) (after : List ParameterForm) : List Char :=
  listText (type.text :: after.map (·.text)) ++ ')' :: header.ending

/-- There is a first among the arrays that have a type. -/
theorem exists_cut_of_typedArray {form : ParameterForm} (hmem : form ∈ header.parameters)
    (htyped : form.isTypedArray = true) :
    ∃ before first type after, header.parameters = before ++ first :: after ∧
      (∀ earlier ∈ before, earlier.isTypedArray = false) ∧ first.isArray = true ∧
      first.type = some type := by
  cases hfind : header.parameters.find? (·.isTypedArray) with
  | none => exact absurd htyped (by simpa using List.find?_eq_none.1 hfind form hmem)
  | some first =>
    obtain ⟨hfirst, before, after, hparameters, hbefore⟩ := List.find?_eq_some_iff_append.1 hfind
    obtain ⟨harray, hsome⟩ := Bool.and_eq_true_iff.1 hfirst
    obtain ⟨type, htype⟩ := Option.isSome_iff_exists.1 hsome
    exact ⟨before, first, type, after, hparameters, by simpa using hbefore, harray, htype⟩

section Cut

variable {before after : List ParameterForm} {form : ParameterForm} {type : TypeName}
  (hparameters : header.parameters = before ++ form :: after)
  (hbefore : ∀ earlier ∈ before, earlier.isTypedArray = false) (harray : form.isArray = true)
  (htype : form.type = some type)
include hparameters hbefore harray htype

/-- The first array that has a type ends the list and begins the result type. -/
theorem signature?_cut :
    signature? header.text =
      some (header.reading (cutList before form) (some (header.cutType type after))) := by
  refine header.signature?_of_parameterList? ?_
  rw [list, hparameters]
  exact parameterList?_cut hbefore harray htype header.endsSolid_closing header.not_mem_ending

/-- A header with an array that has a type is not read back. -/
theorem signature?_ne_of_cut : signature? header.text ≠ some header.signature := by
  have hlist : header.list = cutList before form ++
      ')' :: (form.clause ++ listText ([] :: after.map (·.text))) := by
    rw [list, hparameters, listText_of_array before after harray, cutList]
  -- The two signatures differ in their lists: one is a proper beginning of the other.
  have hlonger : cutList before form ≠ header.list := by
    intro h
    have hlength := congrArg List.length (h.trans hlist)
    simp at hlength
  have hsome : header.parameters.isEmpty = false := by simp [hparameters]
  rw [header.signature?_cut hparameters hbefore harray htype]
  intro h
  have hplaces := congrArg Signature.parameters (Option.some.inj h)
  rw [reading, signature, hsome] at hplaces
  dsimp only at hplaces
  split at hplaces
  · cases hplaces
  · exact hlonger (congrArg Span.text (Option.some.inj hplaces))

end Cut

/-! ### The shape of a header -/

theorem text_eq_cons : ∃ first rest, header.text = first :: rest ∧ first ∈ ['P', 'F', 'G', 'S'] := by
  unfold text placed named
  rcases header.access with _ | _ | _ | _ | _
  · cases header.isStatic with
    | true => exact ⟨'S', _, rfl, by decide⟩
    | false => cases header.member <;> exact ⟨_, _, rfl, by decide⟩
  all_goals exact ⟨_, _, rfl, by decide⟩

/-- No other shape is tried first that begins like a header. -/
theorem shapeOf_of_signature? {signature : Signature} (h : signature? header.text = some signature) :
    shapeOf header.text = .procedureStart signature := by
  obtain ⟨first, rest, htext, hfirst⟩ := header.text_eq_cons
  have hletter : first = 'P' ∨ first = 'F' ∨ first = 'G' ∨ first = 'S' := by simpa using hfirst
  have hnone (word : String) (hword : word = "option" ∨ word = "attribute" ∨ word = "end") :
      afterKeyword word header.text = none := by
    rw [htext]
    rcases hletter with rfl | rfl | rfl | rfl <;> rcases hword with rfl | rfl | rfl <;> rfl
  have hoption : optionKind? header.text = none := by
    rw [optionKind?, hnone "option" (by simp)]
    rfl
  have hend : isEndOf ["sub", "function", "property"] header.text = false := by
    rw [isEndOf, hnone "end" (by simp)]
  rw [shapeOf, hoption, hnone "attribute" (by simp), hend, h]
  rfl

end HeaderForm

end VbaLint.Statement
