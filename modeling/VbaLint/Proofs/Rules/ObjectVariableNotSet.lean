import Mathlib.Data.List.Flatten
import VbaLint.Proofs.Module.Holders
import VbaLint.Proofs.Module.Parts
import VbaLint.Proofs.Project.References
import VbaLint.Proofs.Rules.Lowering
import VbaLint.Proofs.Tree.Visits

/-!
# Which assignments to object variables are reported

The rule reports the assignments to declarations that hold objects which are written without `Set`, and
on demand those that set to `Nothing`. What holds an object and what sets to `Nothing` is said here
without the steps of the rule.
-/

namespace VbaLint

open Source Statement Text Tree

namespace ObjectVariableNotSet

/-! ## Declarations that hold objects -/

/-- The type without a length after an asterisk and without qualification is `base`. -/
def IsBaseType (type base : List Char) : Prop :=
  ∃ qualifier, trim (type.takeWhile (· != '*')) = qualifier ++ base ∧ '.' ∉ base ∧
    (qualifier = [] ∨ qualifier.getLast? = some '.')

theorem isBaseType_iff {type : String} {base : List Char} :
    IsBaseType type.toList base ↔ (baseType type).toList = base := by
  have hbase : (baseType type).toList =
      ((trim (type.toList.takeWhile (· != '*'))).reverse.takeWhile (· != '.')).reverse := by
    rw [baseType, String.toList_ofList]
  rw [hbase, IsBaseType]
  generalize trim (type.toList.takeWhile (· != '*')) = unsized
  constructor
  · rintro ⟨qualifier, rfl, hfree, hends⟩
    rw [List.reverse_append, List.reverse_eq_iff, List.takeWhile_append_of_pos]
    · rcases hends with rfl | hends
      · simp
      · obtain ⟨shorter, rfl⟩ := List.getLast?_eq_some_iff.1 hends
        simp
    · intro c hc
      rw [bne_iff_ne]
      rintro rfl
      exact hfree (List.mem_reverse.1 hc)
  · rintro rfl
    refine ⟨(unsized.reverse.dropWhile (· != '.')).reverse, ?_, ?_, ?_⟩
    · rw [← List.reverse_append, List.takeWhile_append_dropWhile, List.reverse_reverse]
    · intro hdot
      have hpassed := List.mem_takeWhile_imp (List.mem_reverse.1 hdot)
      exact absurd hpassed (by decide)
    · rw [List.reverse_eq_nil_iff, List.getLast?_reverse]
      cases hbehind : unsized.reverse.dropWhile (· != '.') with
      | nil => exact .inl rfl
      | cons first rest =>
        have hfirst := List.head?_dropWhile_not (· != '.') unsized.reverse
        rw [hbehind] at hfirst
        refine .inr ?_
        simpa using hfirst

/-- The declaration is a variable, a parameter, a function or a getter that is no array, and has a type
that is no `Variant`, no intrinsic value type, and no user-defined type or enumeration of the project. -/
structure HoldsObject (snapshot : Snapshot) (declaration : Declaration) : Prop where
  kind_mem : declaration.kind ∈
    [.variableItem, .parameter, .function, .propertyGet]
  not_array : declaration.isArray = false
  typed : ∃ type base, declaration.asType = some type ∧ IsBaseType type.toList base.toList ∧
    (∀ name ∈ "Variant" :: valueTypes, lowerAsciiString base ≠ lowerAsciiString name) ∧
    ∀ other ∈ snapshot.declarations, other.kind = .userDefinedType ∨ other.kind = .enumeration →
      lowercase other.name ≠ lowercase base

theorem sameName_iff {left right : String} :
    sameName left right = true ↔ lowerAsciiString left = lowerAsciiString right := by
  constructor
  · intro h
    exact congrArg String.ofList (beq_iff_eq.1 h)
  · exact sameName_of_lowerAsciiString_eq

variable {snapshot : Snapshot} {declaration : Declaration}

theorem isUserValueType_iff {name : String} : snapshot.isUserValueType name = true ↔
    ∃ other ∈ snapshot.declarations, (other.kind = .userDefinedType ∨ other.kind = .enumeration) ∧
      lowercase other.name = lowercase name := by
  simp [Snapshot.isUserValueType, Declaration.isValueType, Array.mem_iff_getElem]

theorem isObjectType_iff {type : String} : snapshot.isObjectType type = true ↔
    ∃ base, IsBaseType type.toList base.toList ∧
      (∀ name ∈ "Variant" :: valueTypes, lowerAsciiString base ≠ lowerAsciiString name) ∧
      ∀ other ∈ snapshot.declarations, other.kind = .userDefinedType ∨ other.kind = .enumeration →
        lowercase other.name ≠ lowercase base := by
  have hbase (base : String) : IsBaseType type.toList base.toList ↔ baseType type = base := by
    rw [isBaseType_iff, String.toList_inj]
  have huser : snapshot.isUserValueType (baseType type) = false ↔
      ∀ other ∈ snapshot.declarations, other.kind = .userDefinedType ∨ other.kind = .enumeration →
        lowercase other.name ≠ lowercase (baseType type) := by
    rw [← Bool.not_eq_true, isUserValueType_iff]
    grind
  simp only [hbase, exists_eq_left', ← huser, Snapshot.isObjectType, Bool.and_eq_true,
    Bool.not_eq_true', List.forall_mem_cons, ← Bool.not_eq_true, sameName_iff, List.any_eq_true,
    not_exists, not_and, ne_eq, and_assoc]

/-- Assigning takes `Set` if and only if the declaration holds objects. -/
theorem requiresSet_iff : snapshot.requiresSet declaration = true ↔
    HoldsObject snapshot declaration := by
  have hkind : declaration.holdsValue = true ↔ declaration.kind ∈
      [.variableItem, .parameter, .function, .propertyGet] := by
    simp [Declaration.holdsValue, DeclarationKind.returnsValue, or_assoc]
  simp only [Snapshot.requiresSet, Bool.and_eq_true, hkind, Bool.not_eq_true', Option.any_eq_true,
    isObjectType_iff, and_assoc]
  constructor
  · rintro ⟨hmem, harray, type, htype, base, hbase, hnames, hothers⟩
    exact ⟨hmem, harray, type, base, htype, hbase, hnames, hothers⟩
  · rintro ⟨hmem, harray, type, base, htype, hbase, hnames, hothers⟩
    exact ⟨hmem, harray, type, htype, base, hbase, hnames, hothers⟩

instance : Decidable (HoldsObject snapshot declaration) :=
  decidable_of_iff _ requiresSet_iff

/-! ## Statements that set to `Nothing` -/

/-- The statement sets something to `Nothing`, in any case. -/
def SetsNothing (text : List Char) : Prop :=
  ∃ assignment, shapeOf text = .setAssignment assignment ∧
    lowerAscii (trim assignment.value.text) = "nothing".toList

instance (text : List Char) : Decidable (SetsNothing text) :=
  match h : shapeOf text with
  | .setAssignment assignment =>
    decidable_of_iff (lowerAscii (trim assignment.value.text) = "nothing".toList) <| by
      simp [SetsNothing, h]
  | .option _ | .attribute | .procedureEnd | .procedureStart _ | .blockEnd | .blockStart _ _
  | .declare | .constants _ | .variables _ | .letAssignment _ | .call _ | .other =>
    isFalse fun ⟨_, hset, _⟩ ↦ by
      rw [h] at hset
      cases hset

theorem exists_setAssignment {text : List Char} (h : (shapeOf text).nodeKind = .setStmt) :
    ∃ assignment, shapeOf text = .setAssignment assignment := by
  cases hshape : shapeOf text with
  | setAssignment assignment => exact ⟨assignment, rfl⟩
  | procedureStart signature =>
    have hprocedure := isProcedure_of_signature? (signature?_of_shapeOf hshape)
    rw [hshape] at h
    change signature.kind = .setStmt at h
    rw [h] at hprocedure
    cases hprocedure
  | option kind =>
    rw [hshape] at h
    rcases optionKind?_cases (optionKind?_of_shapeOf hshape) with rfl | rfl | rfl | rfl <;> cases h
  | blockStart kind name =>
    rw [hshape] at h
    rcases blockStart?_cases (blockStart?_of_shapeOf hshape) with rfl | rfl <;> cases h
  | _ =>
    rw [hshape] at h
    cases h

/-- The node of an assignment with `Set` says what it sets, and to what. -/
theorem assignsNothing_iff (component source : String) {statement : Nat}
    (hkind : (readModule component source).tree.kind? statement = some .setStmt) :
    assignsNothing (readModule component source).tree statement = true ↔
      ∃ text ∈ (readModule component source).tree.text? statement, SetsNothing text.toList := by
  let tree := (readModule component source).tree
  have hobeys : tree.Obeys := obeys_readModule component source
  have hstatement : statement ∈ tree.statementNodes := by
    have hroot : statement ≠ 0 := by
      rintro rfl
      cases hobeys.root.symm.trans hkind
    obtain ⟨parent, above, hparent, habove, hholds⟩ := hobeys.exists_above hkind hroot
    refine SyntaxTree.mem_statementNodes.2
      ⟨parent, above, habove, ?_, SyntaxTree.mem_children.2 hparent⟩
    cases above <;> first | rfl | exact absurd hholds Bool.false_ne_true
  have hheld := (Reading.holds_start component source.toList).foldl_item (lineItems source.toList)
  obtain ⟨segment, -, hrenders⟩ := exists_of_mem_left hheld.renders hstatement
  obtain ⟨node, hnode, hnodeKind, hnodeText, -⟩ : tree.Renders statement segment := hrenders
  have htext : tree.text? statement = some (String.ofList segment.text) := by
    rw [SyntaxTree.text?, hnode, Option.map_some, hnodeText]
  obtain ⟨assignment, hshape⟩ : ∃ assignment, shapeOf segment.text = .setAssignment assignment := by
    apply exists_setAssignment
    rw [← hnodeKind]
    exact SyntaxTree.kind_eq_of_kind? hnode hkind
  have hsides : tree.partsBelow statement = SyntaxTree.sideParts assignment :=
    (sideParts_readModule component source hstatement htext (by rw [hshape]; rfl)).2
  -- Whatever the target is, the value is the last expression.
  have hlast : ((tree.childrenOfKind statement .expression).map tree.text?).getLast? =
      some (some (String.ofList assignment.value.text)) := by
    rw [SyntaxTree.map_text?_childrenOfKind, hsides, SyntaxTree.sideParts]
    cases plainName? assignment.target.text <;> rfl
  have hvalue : ((tree.childrenOfKind statement .expression).getLast?).bind tree.text? =
      some (String.ofList assignment.value.text) := by
    rw [List.getLast?_map] at hlast
    obtain ⟨value, hvalue, hknown⟩ := Option.map_eq_some_iff.1 hlast
    rw [hvalue, Option.bind_some, hknown]
  have hassigns : assignsNothing tree statement =
      (((tree.childrenOfKind statement .expression).getLast?).bind tree.text?).any fun text ↦
        sameName (trimString text) "Nothing" := by
    rw [assignsNothing]
    cases (tree.childrenOfKind statement .expression).getLast? with
    | none => rfl
    | some value => cases hknown : tree.node? value <;> simp [SyntaxTree.text?, hknown]
  rw [hassigns, hvalue, Option.any_some, htext]
  simp only [Option.mem_some_iff, exists_eq_left', String.toList_ofList, SetsNothing, hshape,
    Shape.setAssignment.injEq, sameName, trimString, sameIgnoringCase, beq_iff_eq]
  rfl

/-! ## What is reported -/

/-- The reference stands in an assignment with `Let` or, if the flag is on, in one with `Set` that sets to
`Nothing`. -/
def StandsWithoutSet (flag : Bool) (snapshot : Snapshot) (reference : Reference) : Prop :=
  ∃ source ∈ snapshot.modules, source.name = reference.module ∧
    ∃ statement ∈ source.parsed.tree.ancestors reference.node,
      source.parsed.tree.kind? statement = some .letStmt ∨
        flag = true ∧ source.parsed.tree.kind? statement = some .setStmt ∧
          ∃ text ∈ source.parsed.tree.text? statement, SetsNothing text.toList

instance (flag : Bool) (reference : Reference) :
    Decidable (StandsWithoutSet flag snapshot reference) :=
  inferInstanceAs (Decidable (∃ source ∈ snapshot.modules, source.name = reference.module ∧ _))

/-- The reference is to be reported: it assigns to a declaration that holds objects, without `Set`, and
the rule is not silenced there. -/
structure IsOffence (flag : Bool) (snapshot : Snapshot) (declaration : Declaration)
    (reference : Reference) : Prop where
  assigns : reference.isAssignment = true
  holdsObject : HoldsObject snapshot declaration
  standsWithoutSet : StandsWithoutSet flag snapshot reference
  heard : snapshot.isIgnoring reference.module reference.node "ObjectVariableNotSet" = false

theorem isOffence_iff {flag : Bool} {reference : Reference} :
    IsOffence flag snapshot declaration reference ↔
      reference.isAssignment = true ∧ HoldsObject snapshot declaration ∧
        StandsWithoutSet flag snapshot reference ∧
          snapshot.isIgnoring reference.module reference.node "ObjectVariableNotSet" = false :=
  ⟨fun ⟨assigns, holds, stands, heard⟩ ↦ ⟨assigns, holds, stands, heard⟩,
    fun ⟨assigns, holds, stands, heard⟩ ↦ ⟨assigns, holds, stands, heard⟩⟩

instance (flag : Bool) (reference : Reference) :
    Decidable (IsOffence flag snapshot declaration reference) :=
  decidable_of_iff _ isOffence_iff.symm

section Above

variable {tree : SyntaxTree} {id : Nat} {kind : NodeKind}

theorem mem_of_ancestorOfKind? {above : Nat} (h : tree.ancestorOfKind? id kind = some above) :
    above ∈ tree.ancestors id ∧ tree.kind? above = some kind := by
  have hkind := List.find?_some h
  simp only [Option.any_eq_true, beq_iff_eq, exists_eq_right] at hkind
  exact ⟨List.mem_of_find?_eq_some h, hkind⟩

theorem isSome_ancestorOfKind?_iff : (tree.ancestorOfKind? id kind).isSome = true ↔
    ∃ above ∈ tree.ancestors id, tree.kind? above = some kind := by
  rw [SyntaxTree.ancestorOfKind?, SyntaxTree.ancestorWhere?, List.find?_isSome]
  simp only [Option.any_eq_true, beq_iff_eq, exists_eq_right]

/-- An assignment with `Set` above a node is the one that a search finds. -/
theorem ancestorOfKind?_setStmt_iff (hobeys : tree.Obeys) {above : Nat} :
    tree.ancestorOfKind? id .setStmt = some above ↔
      above ∈ tree.ancestors id ∧ tree.kind? above = some .setStmt := by
  refine ⟨mem_of_ancestorOfKind?, ?_⟩
  rintro ⟨habove, hkind⟩
  obtain ⟨found, hfound⟩ :=
    Option.isSome_iff_exists.1 (isSome_ancestorOfKind?_iff.2 ⟨above, habove, hkind⟩)
  obtain ⟨hplace, hsame⟩ := mem_of_ancestorOfKind? hfound
  rw [hfound, hobeys.eq_of_setStmt hkind hsame habove hplace]

end Above

/-- What the rule finds around a reference is what stands there. -/
theorem isOffending_iff {settings : RuleSettings} {project : String} {modules : List ModuleText}
    {version : Nat} {reference : Reference} :
    let snapshot := (Assembly.ofModules project modules).build version
    isOffending settings snapshot reference = true ↔
      StandsWithoutSet settings.flagSetNothing snapshot reference := by
  intro snapshot
  have hread : snapshot.IsRead := Assembly.isRead_build project modules version
  obtain ⟨texts, -, hmodules⟩ := Assembly.exists_lastTexts_build project modules version
  have hset {source : ModuleSource} (hsource : source ∈ snapshot.modules) (statement : Nat) :
      source.parsed.tree.ancestorOfKind? reference.node .setStmt = some statement ∧
          assignsNothing source.parsed.tree statement = true ↔
        statement ∈ source.parsed.tree.ancestors reference.node ∧
          source.parsed.tree.kind? statement = some .setStmt ∧
            ∃ text ∈ source.parsed.tree.text? statement, SetsNothing text.toList := by
    rw [ancestorOfKind?_setStmt_iff (hread.obeys source hsource), and_assoc]
    obtain ⟨text, -, rfl⟩ := List.mem_map.1 (hmodules ▸ hsource)
    refine and_congr_right fun _ ↦ and_congr_right fun hkind ↦ ?_
    exact assignsNothing_iff text.component text.text hkind
  have htree (tree : SyntaxTree) : snapshot.tree? reference.module = some tree ↔
      ∃ source ∈ snapshot.modules, source.name = reference.module ∧ source.parsed.tree = tree := by
    rw [Snapshot.tree?, Option.map_eq_some_iff, Snapshot.module?]
    simp only [find?_eq_some_iff_of_pairwise hread.ordered, and_assoc]
  rw [isOffending, StandsWithoutSet, Option.any_eq_true]
  simp only [htree, Bool.or_eq_true, Bool.and_eq_true, isSome_ancestorOfKind?_iff,
    Option.any_eq_true]
  constructor
  · rintro ⟨_, ⟨source, hsource, hname, rfl⟩, ⟨statement, habove, hlet⟩ | ⟨hflag, statement, hfound⟩⟩
    · exact ⟨source, hsource, hname, statement, habove, .inl hlet⟩
    · obtain ⟨habove, hkind, hnothing⟩ := (hset hsource statement).1 hfound
      exact ⟨source, hsource, hname, statement, habove, .inr ⟨hflag, hkind, hnothing⟩⟩
  · rintro ⟨source, hsource, hname, statement, habove, hlet | ⟨hflag, hkind, hnothing⟩⟩
    · exact ⟨_, ⟨source, hsource, hname, rfl⟩, .inl ⟨statement, habove, hlet⟩⟩
    · exact ⟨_, ⟨source, hsource, hname, rfl⟩, .inr ⟨hflag, statement,
        (hset hsource statement).2 ⟨habove, hkind, hnothing⟩⟩⟩

/-- The references to a declaration that the rule picks are those that it is to report. -/
theorem offences_eq_filter_isOffence {settings : RuleSettings} {project : String}
    {modules : List ModuleText} {version : Nat} {declaration : Declaration} :
    let snapshot := (Assembly.ofModules project modules).build version
    declaration ∈ snapshot.declarations → offences settings snapshot declaration =
      declaration.references.toList.filter fun reference ↦
        IsOffence settings.flagSetNothing snapshot declaration reference := by
  intro snapshot hdeclaration
  obtain ⟨id, hat⟩ := Array.mem_iff_getElem?.1 hdeclaration
  have hclosed : snapshot.IsClosed := Assembly.isClosed_build project modules version
  have hknown (reference : Reference) (hreference : reference ∈ declaration.references.toList) :
      (snapshot.declaration? reference.declaration).isSome = true := by
    rw [hclosed.declaration_eq hat (Array.mem_toList_iff.1 hreference)]
    exact Option.isSome_of_eq_some hat
  rw [offences]
  by_cases hholds : snapshot.requiresSet declaration = true
  · rw [if_pos hholds]
    apply List.filter_congr
    intro reference hreference
    have hstands : isOffending settings snapshot reference = true ↔
        StandsWithoutSet settings.flagSetNothing snapshot reference := isOffending_iff
    rw [Bool.eq_iff_iff, decide_eq_true_iff, isOffence_iff, ← hstands]
    simp only [hknown reference hreference, Bool.and_true, Bool.and_eq_true, Bool.not_eq_true',
      requiresSet_iff.1 hholds, true_and, and_assoc]
    rfl
  · rw [if_neg hholds, eq_comm, List.filter_eq_nil_iff]
    intro reference _
    rw [decide_eq_true_iff]
    exact fun hoffence ↦ hholds (requiresSet_iff.2 hoffence.holdsObject)

/-- Each picked reference is reported where it stands. -/
theorem filterMap_referenceFinding? {context : PassContext} (hclosed : context.snapshot.IsClosed)
    {declaration : Declaration} (hdeclaration : declaration ∈ context.snapshot.declarations)
    {picked : List Reference} (hpicked : picked ⊆ declaration.references.toList) :
    (picked.filterMap fun reference ↦
        context.referenceFinding? info reference (message reference)) =
      picked.map fun reference ↦ context.finding info
        (.reference reference.module reference.node reference.selection reference.identifier
          reference.declaration) (message reference) := by
  obtain ⟨id, hat⟩ := Array.mem_iff_getElem?.1 hdeclaration
  rw [← List.filterMap_eq_map]
  apply List.filterMap_congr
  intro reference hreference
  obtain ⟨node, hnode, -⟩ :=
    hclosed.identifier_known hat (Array.mem_toList_iff.1 (hpicked hreference))
  rw [PassContext.referenceFinding?, Snapshot.containsNode, hnode, Option.isSome_some, if_pos rfl]
  rfl

end ObjectVariableNotSet

/-- The rule reports exactly the references that it is to report, in the order of the declarations and
within a declaration in the order of its references; and none is reported twice. -/
theorem unset_objects_are_reported_exactly (project : String) (modules : List ModuleText)
    (version : Nat) (severities : Severities) (settings : RuleSettings) (state : Collector) :
    let context : PassContext := ⟨(Assembly.ofModules project modules).build version, severities⟩
    let offences := context.snapshot.declarations.toList.flatMap fun declaration ↦
      declaration.references.toList.filter fun reference ↦ ObjectVariableNotSet.IsOffence
        settings.flagSetNothing context.snapshot declaration reference
    RuleInstance.outcome context ⟨ObjectVariableNotSet.inspection settings, state⟩ = .found
        (offences.map fun reference ↦ context.finding ObjectVariableNotSet.info
          (.reference reference.module reference.node reference.selection reference.identifier
            reference.declaration)
          ("Object variable '" ++ reference.identifier ++
            "' is assigned without the 'Set' keyword.")) ∧
      (offences.map Reference.place).Nodup := by
  intro context offences
  have hread : context.snapshot.IsRead := Assembly.isRead_build project modules version
  have hclosed : context.snapshot.IsClosed := Assembly.isClosed_build project modules version
  constructor
  · rw [ObjectVariableNotSet.inspection, Inspection.outcome_ofDeclarations]
    simp only [offences, List.map_flatMap, RunOutcome.found.injEq]
    apply List.flatMap_congr
    intro declaration hdeclaration
    have hmem : declaration ∈ context.snapshot.declarations := Array.mem_toList_iff.1 hdeclaration
    rw [ObjectVariableNotSet.offences_eq_filter_isOffence hmem]
    exact ObjectVariableNotSet.filterMap_referenceFinding? hclosed hmem (List.filter_subset_self _)
  · refine hread.nodup_places.sublist ?_
    simp only [offences, List.map_flatMap]
    exact List.Sublist.flatMap_right _ fun declaration _ ↦ List.filter_sublist.map Reference.place

end VbaLint
