import VbaLint.Proofs.Module.MemberNodes
import VbaLint.Proofs.Statement.HeaderForm

/-!
# Headers and what they declare

A written header is read back as it is written, and the member that it begins declares its name, its
result type and its parameters as they are written, if none of the parameters is an array with a type.
The first such parameter ends the list, and what is behind its parentheses is taken for the result type.
-/

namespace VbaLint

open Source Statement Text Tree

namespace Statement

def MemberForm.declarationKind : MemberForm → DeclarationKind
  | sub => .procedure
  | function => .function
  | propertyGet => .propertyGet
  | propertyLet => .propertyLet
  | propertySet => .propertySet

theorem MemberForm.memberDeclarationKind_kind (member : MemberForm) :
    memberDeclarationKind member.kind = member.declarationKind := by
  cases member <;> rfl

theorem HeaderForm.parameterTexts_signature (header : HeaderForm) :
    header.signature.parameterTexts = header.parameters.map (·.text) := by
  rw [Signature.parameterTexts, HeaderForm.signature]
  dsimp only
  split
  · next hnone => simp [List.isEmpty_iff.1 hnone]
  · exact map_text_items_listText header.parameters

/-- What a written header declares, its name standing at `place`. -/
def HeaderForm.declared (header : HeaderForm) (place : Selection) : Declared where
  name := String.ofList header.name.text
  kind := header.member.declarationKind
  selection := place
  asType := header.result.map fun result ↦ String.ofList result.type.text
  isArray := header.result.any (·.isArray)
  isPublic := header.access != some .hidden

/-- What a written parameter declares, its name standing at `place`. -/
def ParameterForm.declared (form : ParameterForm) (place : Selection) : Declared where
  name := String.ofList form.name.text
  kind := .parameter
  selection := place
  asType := form.type.map fun type ↦ String.ofList type.text
  isArray := form.isArray

theorem TypeName.withoutArrayMarks_reverse (type : TypeName) :
    withoutArrayMarks type.text.reverse = type.text.reverse := by
  cases hreverse : type.text.reverse with
  | nil => rfl
  | cons last reversed =>
    have hlast : last ≠ ')' := by
      rintro rfl
      have hmem : ')' ∈ type.text.reverse := by simp [hreverse]
      exact type.not_mem_text rfl (List.mem_reverse.1 hmem)
    rw [withoutArrayMarks]
    intro _ heq
    exact hlast (List.cons.inj heq).1

theorem ResultForm.withoutArrayMarks_text (result : ResultForm) :
    (withoutArrayMarks result.text.reverse).reverse = result.type.text := by
  unfold text
  cases result.isArray with
  | true =>
    have hmarks : (result.type.text ++ "()".toList).reverse =
        ')' :: '(' :: result.type.text.reverse := by simp
    rw [if_pos rfl, hmarks, withoutArrayMarks, result.type.withoutArrayMarks_reverse,
      List.reverse_reverse]
  | false =>
    rw [if_neg Bool.false_ne_true, List.append_nil, result.type.withoutArrayMarks_reverse,
      List.reverse_reverse]

theorem ResultForm.isArrayType_text (result : ResultForm) :
    isArrayType result.text = result.isArray := by
  unfold text
  cases result.isArray with
  | true => simp [isArrayType]
  | false =>
    rw [if_neg Bool.false_ne_true, List.append_nil, ← Bool.not_eq_true, isArrayType,
      List.isSuffixOf_iff_suffix]
    intro hsuffix
    exact result.type.not_mem_text rfl (hsuffix.subset (by simp : ')' ∈ ['(', ')']))

end Statement

/-- The node declares what the header says, and the parameters below it declare what the parameters of
the header say. -/
def Tree.SyntaxTree.Declares (tree : SyntaxTree) (id : Nat) (header : HeaderForm) : Prop :=
  (∃ place, tree.declared? id = some (header.declared place)) ∧
    List.Forall₂ (fun parameter form ↦
      ∃ place, tree.declared? parameter = some (ParameterForm.declared form place))
      (tree.childrenOfKind id .arg) header.parameters

namespace Tree.SyntaxTree

variable {tree : SyntaxTree} {id : Nat}

/-- The parameter that was written is the one that is declared. -/
theorem IsParameter.declares {form : ParameterForm} (h : tree.IsParameter id form.text) :
    ∃ place, tree.declared? id = some (form.declared place) := by
  obtain ⟨place, hplace⟩ := h.named form.parameter?_text
  obtain ⟨node, hnode, htext⟩ := Option.map_eq_some_iff.1 h.text_eq
  have hkind : node.kind = .arg := kind_eq_of_kind? hnode h.kind_eq
  refine ⟨place, ?_⟩
  unfold declared?
  simp only [bind, hnode, Option.bind_some, hkind]
  rw [declaredParameter?]
  simp only [bind, htext, String.toList_ofList, form.parameter?_text, hplace, Option.bind_some]
  simp only [ParameterForm.declared, ParameterForm.parameter, Option.map_map]
  rfl

theorem declared?_of_isProcedure {node : Node} (hnode : tree.node? id = some node)
    (hprocedure : node.kind.isProcedure = true) :
    tree.declared? id = tree.declaredMember? id node := by
  unfold declared?
  simp only [bind, hnode, Option.bind_some]
  cases hkind : node.kind <;> first | rfl | (rw [hkind] at hprocedure; cases hprocedure)

/-- A member with the signature that a header says declares what the header says. -/
theorem IsMember.declares {header : HeaderForm} (h : tree.IsMember id header.signature)
    (htext : tree.text? id = some (String.ofList header.text))
    (hread : signature? header.text = some header.signature) : tree.Declares id header := by
  refine ⟨?_, ?_⟩
  · obtain ⟨place, hplace⟩ := h.named
    obtain ⟨node, hnode, hsame⟩ := Option.map_eq_some_iff.1 htext
    have hkind : node.kind = header.member.kind := kind_eq_of_kind? hnode h.kind_eq
    have hprocedure : node.kind.isProcedure = true := by
      rw [hkind]
      cases header.member <;> rfl
    refine ⟨place, ?_⟩
    rw [declared?_of_isProcedure hnode hprocedure, declaredMember?]
    simp only [bind, hsame, String.toList_ofList, hread, hplace, Option.bind_some]
    rw [hkind, header.member.memberDeclarationKind_kind]
    cases hresult : header.result with
    | none => simp [HeaderForm.signature, HeaderForm.declared, hresult]
    | some result =>
      simp [HeaderForm.signature, HeaderForm.declared, hresult, result.withoutArrayMarks_text,
        result.isArrayType_text]
  · have hparameters := h.parameters
    rw [header.parameterTexts_signature, List.forall₂_map_right_iff] at hparameters
    exact List.Forall₂.imp (fun _ _ hparameter ↦ hparameter.declares) hparameters

end Tree.SyntaxTree

/-- A header is read back as it is written, alone and in every module. -/
structure Statement.HeaderForm.ReadBack (header : HeaderForm) : Prop where
  signature_eq : signature? header.text = some header.signature
  shape_eq : shapeOf header.text = .procedureStart header.signature
  items_eq : (items header.list).map (·.text) = header.parameters.map (·.text)
  parameter_eq {form : ParameterForm} : form ∈ header.parameters →
    parameter? form.text = some form.parameter
  declares (component text : String) {id : Nat} :
    id ∈ (readModule component text).tree.statementNodes →
    (readModule component text).tree.text? id = some (String.ofList header.text) →
      (readModule component text).tree.Declares id header

theorem Statement.HeaderForm.readBack (header : HeaderForm)
    (h : ∀ form ∈ header.parameters, form.isTypedArray = false) : header.ReadBack where
  signature_eq := header.signature?_text h
  shape_eq := header.shapeOf_of_signature? (header.signature?_text h)
  items_eq := map_text_items_listText header.parameters
  parameter_eq _ := ParameterForm.parameter?_text _
  declares component text id hid htext := by
    have hstatement := (List.mem_filter.1 hid).2
    have hread := header.signature?_text h
    have hmember := laysOutMembers_readModule component text id header.text header.signature
      hstatement htext (header.shapeOf_of_signature? hread)
    exact hmember.declares htext hread

/-- Headers are read back exactly, but for those with a parameter that is an array with a type. Such a
parameter is read well by itself, but the list ends in the parentheses of the first one. -/
theorem headers_are_read_back (header : HeaderForm) :
    (header.ReadBack ↔ ∀ form ∈ header.parameters, form.isTypedArray = false) ∧
      ∀ before form type after, header.parameters = before ++ form :: after →
        (∀ earlier ∈ before, earlier.isTypedArray = false) → form.isArray = true →
        form.type = some type →
          parameter? form.text = some ⟨form.name.text, true, some type.text⟩ ∧
          signature? header.text =
            some (header.reading (HeaderForm.cutList before form)
              (some (header.cutType type after))) := by
  refine ⟨⟨fun hread form hform ↦ ?_, header.readBack⟩, ?_⟩
  · rw [← Bool.not_eq_true]
    intro htyped
    obtain ⟨before, first, type, after, hparameters, hbefore, harray, htype⟩ :=
      header.exists_cut_of_typedArray hform htyped
    exact header.signature?_ne_of_cut hparameters hbefore harray htype hread.signature_eq
  · intro before form type after hparameters hbefore harray htype
    refine ⟨?_, header.signature?_cut hparameters hbefore harray htype⟩
    rw [form.parameter?_text, ParameterForm.parameter, harray, htype]
    rfl

/-- A `Sub` whose parameter is an array with a type. -/
def arrayHeader : HeaderForm where
  access := none
  isStatic := false
  member := .sub
  name := ⟨"Foo".toList, by decide +kernel, by decide +kernel, by decide +kernel⟩
  parameters :=
    [{ isOptional := false
       passing := none
       isParamArray := false
       name := ⟨"a".toList, by decide +kernel, by decide +kernel, by decide +kernel⟩
       isArray := true
       type := some ⟨⟨"Long".toList, by decide +kernel, by decide +kernel, by decide +kernel⟩, []⟩ }]
  result := none

/-- The list of the header ends in the parentheses of the array. -/
theorem arrayHeader_not_read_back :
    arrayHeader.text = "Sub Foo(a() As Long)".toList ∧
      signature? arrayHeader.text =
        some
          { kind := .subStmt
            name := ⟨"Foo".toList, 4⟩
            isPublic := true
            parameters := some ⟨"a(".toList, 8⟩
            asType := some "Long)".toList } ∧
      ¬ arrayHeader.ReadBack := by
  have hcut : signature? arrayHeader.text ≠ some arrayHeader.signature := by decide +kernel
  exact ⟨rfl, by decide +kernel, fun h ↦ hcut h.signature_eq⟩

end VbaLint
