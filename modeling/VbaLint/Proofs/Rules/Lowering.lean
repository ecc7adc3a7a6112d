import VbaLint.Proofs.Module.TreeGrammar
import VbaLint.Proofs.Project.Lowering
import VbaLint.Proofs.Project.Origins
import VbaLint.Proofs.Rules.Locating

/-!
# Rules over lowered snapshots

What a built-in rule finds in a lowered snapshot is what it finds in the snapshot itself, in the
same order and at the same places; only the letters of names that it mentions may differ in case.
-/

namespace VbaLint

open Source Statement Text Tree

/-! ## Suppression -/

theorem ruleKey_lowerAsciiString (name : String) :
    ruleKey (lowerAsciiString name) = ruleKey name := by
  rw [ruleKey, toList_lowerAsciiString, trim_lowerAscii, lowerAscii_lowerAscii, ruleKey]

theorem namesCover_lowerAsciiString (names : List String) (rule : String) :
    namesCover (names.map lowerAsciiString) rule = namesCover names rule := by
  simp [namesCover, Function.comp_def, ruleKey_lowerAsciiString]

namespace Annotation

variable (note : Annotation) (rule : String)

theorem silencesModule_lowered : note.lowered.silencesModule rule = note.silencesModule rule := by
  obtain ⟨directive, target, selection⟩ := note
  cases directive <;> cases target <;>
    simp [lowered, Directive.lowered, silencesModule, namesCover_lowerAsciiString]

theorem silencesNode_lowered (node : Nat) :
    note.lowered.silencesNode node rule = note.silencesNode node rule := by
  obtain ⟨directive, target, selection⟩ := note
  cases directive <;> cases target <;>
    simp [lowered, Directive.lowered, silencesNode, namesCover_lowerAsciiString]

end Annotation

namespace Snapshot

variable (snapshot : Snapshot) (module : ModuleName)

theorem module?_lowered :
    snapshot.lowered.module? module = (snapshot.module? module).map ModuleSource.lowered :=
  find?_map_lowered snapshot.modules module

theorem tree?_lowered :
    snapshot.lowered.tree? module = (snapshot.tree? module).map SyntaxTree.lowered := by
  rw [tree?, module?_lowered, tree?, Option.map_map, Option.map_map]
  rfl

theorem containsNode_lowered (node : Nat) :
    snapshot.lowered.containsNode module node = snapshot.containsNode module node := by
  rw [containsNode, node?, tree?_lowered, containsNode, node?]
  cases snapshot.tree? module with
  | none => rfl
  | some tree => simp [SyntaxTree.node?_lowered]

theorem isSome_declaration?_lowered (id : Nat) :
    (snapshot.lowered.declaration? id).isSome = (snapshot.declaration? id).isSome := by
  simp [declaration?, lowered]

/-- The same rules are silenced at the same places. -/
theorem isIgnoring_lowered (node : Nat) (rule : String) :
    snapshot.lowered.isIgnoring module node rule = snapshot.isIgnoring module node rule := by
  have hscope : snapshot.lowered.suppressingScope? module node rule =
      snapshot.suppressingScope? module node rule := by
    unfold suppressingScope?
    rw [module?_lowered]
    cases snapshot.module? module with
    | none => rfl
    | some source =>
      simp [ModuleSource.lowered, ParsedModule.lowered, Function.comp_def,
        Annotation.silencesNode_lowered, Annotation.silencesModule_lowered]
  rw [isIgnoring, hscope, isIgnoring]

end Snapshot

/-! ## Snapshots of modules that were read -/

/-- The modules stand in the order of their names, their trees obey the grammar, and the
declarations are those of the trees. -/
structure Snapshot.IsRead (snapshot : Snapshot) : Prop where
  ordered : snapshot.modules.Pairwise ModuleSource.Precedes
  obeys : ∀ source ∈ snapshot.modules, source.parsed.tree.Obeys
  declarations_eq : snapshot.declarations =
    bindNames (snapshot.modules.map fun module ↦ ⟨module.name, module.type, module.parsed.tree⟩)

theorem Snapshot.isRead_ofModules (version : Nat) (project : String) {modules : List ModuleSource}
    (hobeys : ∀ source ∈ modules, source.parsed.tree.Obeys) :
    (ofModules version project modules).IsRead where
  ordered := pairwise_modules_ofModules version project modules
  obeys source hsource := hobeys source (modules_ofModules_subset version project modules hsource)
  declarations_eq := rfl

/-- All modules of a snapshot that is built were read. -/
theorem Assembly.isRead_build (project : String) (modules : List ModuleText) (version : Nat) :
    ((ofModules project modules).build version).IsRead := by
  rw [build_eq_snapshot (nodup_components project modules)]
  apply Snapshot.isRead_ofModules
  intro source hsource
  obtain ⟨module, -, rfl⟩ := List.mem_map.1 hsource
  exact obeys_readModule module.component module.text

namespace Snapshot.IsRead

variable {snapshot : Snapshot} (h : snapshot.IsRead)
include h

/-- A node of the snapshot is one of the tree of its module. -/
theorem node?_eq {source : ModuleSource} (hsource : source ∈ snapshot.modules) (id : Nat) :
    snapshot.node? source.name id = source.parsed.tree.node? id := by
  have hmodule : snapshot.module? source.name = some source :=
    (find?_eq_some_iff_of_pairwise h.ordered).2 ⟨hsource, rfl⟩
  rw [node?, tree?, hmodule]
  rfl

/-- A variable is declared at the node of an item of variables. -/
theorem kind_of_variable {declaration : Declaration} (hmem : declaration ∈ snapshot.declarations)
    (hkind : declaration.kind = .variableItem) {node : Node}
    (hnode : snapshot.node? declaration.module declaration.node = some node) :
    node.kind = .variableSubStmt := by
  rw [h.declarations_eq] at hmem
  obtain ⟨module, hmodule, hname, hitem⟩ := kind?_of_variable hmem hkind
  obtain ⟨source, hsource, rfl⟩ := List.mem_map.1 hmodule
  dsimp only at hname hitem
  rw [← hname, h.node?_eq hsource] at hnode
  rw [SyntaxTree.kind?, hnode, Option.map_some] at hitem
  exact Option.some.inj hitem

end Snapshot.IsRead

/-! ## Findings -/

def Target.lowered : Target → Target
  | .context module node selection => .context module node selection
  | .reference module node selection identifier declaration =>
    .reference module node selection (lowerAsciiString identifier) declaration

def Finding.lowered (finding : Finding) : Finding :=
  { finding with
    message := lowerAsciiString finding.message
    target := finding.target.lowered
    snapshotVersion := 0 }

def RunOutcome.lowered : RunOutcome → RunOutcome
  | .found findings => .found (findings.map Finding.lowered)
  | .failed failure => .failed failure
  | .panicked text => .panicked text

namespace PassContext

abbrev lowered (context : PassContext) : PassContext :=
  { context with snapshot := context.snapshot.lowered }

variable (context : PassContext) (info : RuleInfo) {message message' : String}
  (hmessage : lowerAsciiString message' = lowerAsciiString message)
include hmessage

theorem contextFinding?_lowered (place : Context)
    (hplace : ∀ node, context.snapshot.node? place.module place.node = some node →
      node.kind ≠ .identifier) :
    (context.lowered.contextFinding? info place message').map Finding.lowered =
      (context.contextFinding? info place message).map Finding.lowered := by
  unfold contextFinding? Snapshot.node? at *
  rw [Snapshot.tree?_lowered]
  cases htree : context.snapshot.tree? place.module with
  | none => rfl
  | some tree =>
    simp only [Option.map_some, Option.bind_some, SyntaxTree.node?_lowered]
    cases hnode : tree.node? place.node with
    | none => rfl
    | some node =>
      have hname : node.kind ≠ .identifier := hplace node (by rw [htree, Option.bind_some, hnode])
      simp [finding, Finding.lowered, Target.lowered, hmessage, severityOf, Node.lowered,
        NodeKind.isSearched, hname]

theorem referenceFinding?_lowered (reference : Reference) :
    (context.lowered.referenceFinding? info reference.lowered message').map Finding.lowered =
      (context.referenceFinding? info reference message).map Finding.lowered := by
  unfold referenceFinding?
  rw [Reference.lowered, Snapshot.containsNode_lowered]
  split
  · simp [finding, Finding.lowered, Target.lowered, hmessage, severityOf]
  · rfl

end PassContext

/-! ## Rules -/

namespace Inspection

variable {info : RuleInfo}

/-- In a lowered snapshot the rule finds what it finds in the snapshot, but for case. -/
def IsCaseless (rule : Inspection Collector) : Prop :=
  ∀ (context : PassContext) (state : Collector), context.snapshot.IsRead →
    (RuleInstance.outcome context.lowered ⟨rule, state⟩).lowered =
      (RuleInstance.outcome context ⟨rule, state⟩).lowered

theorem isCaseless_ofTrees {select : SyntaxTree → List Nat} (message : ModuleName → String)
    (hselect : ∀ tree, select tree.lowered = select tree)
    (hplace : ∀ tree, tree.Obeys → ∀ id ∈ select tree, tree.kind? id ≠ some .identifier) :
    (ofTrees info select message).IsCaseless := by
  intro context state hread
  have hplaces : (context.lowered.snapshot.modules.flatMap fun module ↦
      (select module.parsed.tree).map (⟨module.name, ·⟩ : Nat → Context)) =
      context.snapshot.modules.flatMap fun module ↦
        (select module.parsed.tree).map (⟨module.name, ·⟩) := by
    change (context.snapshot.modules.map ModuleSource.lowered).flatMap _ = _
    simp only [List.flatMap_map, ModuleSource.lowered, ParsedModule.lowered, hselect]
  rw [outcome_ofTrees, outcome_ofTrees, hplaces]
  simp only [Snapshot.isIgnoring_lowered, RunOutcome.lowered, List.map_filterMap,
    RunOutcome.found.injEq]
  apply List.filterMap_congr
  intro place hmem
  obtain ⟨source, hsource, hplaced⟩ := List.mem_flatMap.1 (List.mem_of_mem_filter hmem)
  obtain ⟨id, hid, rfl⟩ := List.mem_map.1 hplaced
  apply PassContext.contextFinding?_lowered context info rfl
  intro node hnode hname
  rw [hread.node?_eq hsource] at hnode
  apply hplace source.parsed.tree (hread.obeys source hsource) id hid
  rw [SyntaxTree.kind?, hnode, Option.map_some, hname]

theorem isCaseless_ofDeclarations {candidates : Snapshot → List Declaration}
    {find : PassContext → Declaration → List Finding}
    (hcandidates : ∀ snapshot,
      candidates snapshot.lowered = (candidates snapshot).map Declaration.lowered)
    (hfind : ∀ context, context.snapshot.IsRead → ∀ declaration ∈ candidates context.snapshot,
      (find context.lowered declaration.lowered).map Finding.lowered =
        (find context declaration).map Finding.lowered) :
    (ofDeclarations info candidates find).IsCaseless := by
  intro context state hread
  rw [outcome_ofDeclarations, outcome_ofDeclarations, hcandidates]
  simp only [RunOutcome.lowered, List.flatMap_map, List.map_flatMap, RunOutcome.found.injEq]
  exact List.flatMap_congr (hfind context hread)

end Inspection

/-! ## Rules that look at trees -/

namespace Tree.SyntaxTree

variable {tree : SyntaxTree}

theorem kind?_of_enter_mem_visitsFrom {kind : NodeKind} {top id : Nat}
    (h : .enter kind id ∈ tree.visitsFrom top) : tree.kind? id = some kind := by
  induction hrank : tree.size - top using Nat.strongRecOn generalizing top with
  | ind rank ih =>
    cases htop : tree.kind? top with
    | none =>
      rw [visitsFrom_of_no_kind htop] at h
      cases h
    | some above =>
      rw [visitsFrom_of_kind htop] at h
      rcases List.mem_append.1 h with h | h
      · rcases List.mem_cons.1 h with h | h
        · cases h
          exact htop
        · obtain ⟨child, hchild, h⟩ := List.mem_flatMap.1 h
          obtain ⟨hlt, hsize⟩ := lt_of_mem_children hchild
          exact ih (tree.size - child) (by omega) h rfl
      · split at h
        · cases List.mem_singleton.1 h
        · cases h

/-- Identifiers have nothing below them. -/
theorem Obeys.kind?_parent_ne (h : tree.Obeys) {id parent : Nat}
    (hparent : tree.parent? id = some parent) : tree.kind? parent ≠ some .identifier := by
  intro hkind
  have hnone : tree.childKinds parent = [] := h.admits hkind
  have hchildren := tree.map_kind?_children parent
  rw [hnone, List.map_nil, List.map_eq_nil_iff] at hchildren
  have hchild : id ∈ tree.children parent := mem_children.2 hparent
  rw [hchildren] at hchild
  cases hchild

end Tree.SyntaxTree

theorem ObsoleteLetStatement.kind?_of_mem_select {tree : SyntaxTree} {id : Nat}
    (h : id ∈ select tree) : tree.kind? id = some .letStmt := by
  obtain ⟨visit, hvisit, hid⟩ := List.mem_filterMap.1 h
  split at hid
  · obtain ⟨-, hid⟩ := Option.ite_none_right_eq_some.1 hid
    cases hid
    exact SyntaxTree.kind?_of_enter_mem_visitsFrom hvisit
  · cases hid

theorem OptionBase.kind?_of_mem_select {tree : SyntaxTree} {id : Nat}
    (h : id ∈ select tree) : tree.kind? id = some .optionBaseStmt := by
  obtain ⟨visit, hvisit, hid⟩ := List.mem_filterMap.1 h
  split at hid
  · obtain ⟨-, hid⟩ := Option.ite_none_right_eq_some.1 hid
    cases hid
    exact SyntaxTree.kind?_of_enter_mem_visitsFrom hvisit
  · cases hid

theorem Tree.SyntaxTree.any_text_lowered {p : String → Bool}
    (hp : ∀ text, p (lowerAsciiString text) = p text) (tree : SyntaxTree) (id : Nat) :
    ((tree.lowered.node? id).any fun node ↦ p node.text) =
      (tree.node? id).any fun node ↦ p node.text := by
  rw [node?_lowered]
  cases tree.node? id with
  | none => rfl
  | some node => exact hp node.text

namespace ObsoleteLetStatement

theorem beginsWithLet_lowerAsciiString (text : String) :
    beginsWithLet (lowerAsciiString text) = beginsWithLet text := by
  rw [beginsWithLet, toList_lowerAsciiString, words_lowerAscii, List.head?_map, Option.any_map,
    beginsWithLet]
  simp

theorem isCaseless : inspection.IsCaseless := by
  refine Inspection.isCaseless_ofTrees _ ?_ ?_
  · intro tree
    simp only [select, SyntaxTree.visits_lowered,
      SyntaxTree.any_text_lowered beginsWithLet_lowerAsciiString]
  · intro tree _ id hid
    rw [kind?_of_mem_select hid]
    decide

end ObsoleteLetStatement

namespace OptionBase

theorem isBaseOne_lowerAsciiString (text : String) :
    isBaseOne (lowerAsciiString text) = isBaseOne text := by
  rw [isBaseOne, toList_lowerAsciiString, words_lowerAscii, List.getElem?_map, isBaseOne]
  cases (words text.toList)[2]? with
  | none => rfl
  | some word =>
    rw [Bool.eq_iff_iff, beq_iff_eq, beq_iff_eq, Option.map_some, Option.some.injEq,
      Option.some.injEq, lowerAscii_eq_iff (by decide)]

theorem isCaseless : inspection.IsCaseless := by
  refine Inspection.isCaseless_ofTrees _ ?_ ?_
  · intro tree
    simp only [select, SyntaxTree.visits_lowered,
      SyntaxTree.any_text_lowered isBaseOne_lowerAsciiString]
  · intro tree _ id hid
    rw [kind?_of_mem_select hid]
    decide

end OptionBase

namespace OptionExplicit

/-- What is reported is above some node. -/
theorem exists_parent_of_reported {tree : SyntaxTree} {visits : List Visit} {seen : Seen}
    (hseen : ∀ id ∈ seen.reported, ∃ child, tree.parent? child = some id) :
    ∀ id ∈ (visits.foldl (Seen.visit tree) seen).reported,
      ∃ child, tree.parent? child = some id := by
  induction visits generalizing seen with
  | nil => exact hseen
  | cons visit rest ih =>
    apply ih
    unfold Seen.visit
    split
    · exact hseen
    · exact hseen
    · next child =>
      split
      · exact hseen
      · intro id hid
        rcases Option.or_eq_some_iff.1 hid with hold | ⟨-, hnew⟩
        · exact hseen id hold
        · exact ⟨child, hnew⟩
    · exact hseen

theorem visit_lowered (tree : SyntaxTree) : Seen.visit tree.lowered = Seen.visit tree := by
  funext seen visit
  unfold Seen.visit
  simp only [SyntaxTree.parent?_lowered]

theorem isCaseless : inspection.IsCaseless := by
  refine Inspection.isCaseless_ofTrees _ ?_ ?_
  · intro tree
    rw [select, select, visit_lowered, SyntaxTree.visits_lowered]
  · intro tree hobeys id hid
    have hnone : ∀ id ∈ (⟨false, none⟩ : Seen).reported, ∃ child, tree.parent? child = some id := by
      intro id hid
      cases hid
    obtain ⟨child, hchild⟩ := exists_parent_of_reported hnone id (Option.mem_toList.1 hid)
    exact hobeys.kind?_parent_ne hchild

end OptionExplicit

/-! ## Rules that look at declarations -/

namespace Declaration

variable (declaration : Declaration)

@[simp]
theorem lowerAsciiString_name_lowered :
    lowerAsciiString declaration.lowered.name = lowerAsciiString declaration.name := by
  rw [lowered]
  split
  · rfl
  · exact lowerAsciiString_lowerAsciiString _

@[simp]
theorem lowercase_name_lowered :
    lowercase declaration.lowered.name = lowercase declaration.name := by
  rw [lowered]
  split
  · rfl
  · exact lowercase_lowerAsciiString _

theorem reads_lowered : declaration.lowered.reads = declaration.reads.map Reference.lowered := by
  rw [reads, lowered, Array.toList_map, List.filter_map, reads]
  rfl

end Declaration

namespace VariableNotUsed

theorem kind_of_isUnused {declaration : Declaration} (h : isUnused declaration = true) :
    declaration.kind = .variableItem := by
  simp only [isUnused, Bool.and_eq_true, beq_iff_eq] at h
  exact h.1.1

theorem isUnused_lowered (declaration : Declaration) :
    isUnused declaration.lowered = isUnused declaration := by
  rw [isUnused, Declaration.reads_lowered, List.isEmpty_map, isUnused]
  rfl

theorem lowerAsciiString_message_lowered (declaration : Declaration) :
    lowerAsciiString (message declaration.lowered) = lowerAsciiString (message declaration) := by
  simp [message, lowerAsciiString_append]

theorem isCaseless : inspection.IsCaseless := by
  refine Inspection.isCaseless_ofDeclarations ?_ ?_
  · intro snapshot
    rw [Snapshot.lowered, Array.toList_map, List.filter_map]
    congr 2
    funext declaration
    exact isUnused_lowered declaration
  · intro context hread declaration hcandidate
    obtain ⟨hmem, hunused⟩ := List.mem_filter.1 hcandidate
    have hfinding := PassContext.contextFinding?_lowered context info
      (lowerAsciiString_message_lowered declaration) ⟨declaration.module, declaration.node⟩
      fun node hnode ↦ by
        rw [hread.kind_of_variable (Array.mem_toList_iff.1 hmem) (kind_of_isUnused hunused) hnode]
        decide
    have hplace : declaration.lowered.module = declaration.module ∧
        declaration.lowered.node = declaration.node := ⟨rfl, rfl⟩
    unfold find
    rw [hplace.1, hplace.2, Snapshot.isIgnoring_lowered]
    split
    · rfl
    · rw [← Option.toList_map, hfinding, Option.toList_map]

end VariableNotUsed

theorem baseType_lowerAsciiString (type : String) :
    baseType (lowerAsciiString type) = lowerAsciiString (baseType type) := by
  have hunsized : (lowerAscii type.toList).takeWhile (· != '*') =
      lowerAscii (type.toList.takeWhile (· != '*')) :=
    takeWhile_lowerAscii _ fun c ↦ congrArg (!·) (toLower_beq (by decide))
  have hunqualified (reversed : List Char) : (lowerAscii reversed).takeWhile (· != '.') =
      lowerAscii (reversed.takeWhile (· != '.')) :=
    takeWhile_lowerAscii _ fun c ↦ congrArg (!·) (toLower_beq (by decide))
  simp only [baseType, toList_lowerAsciiString, hunsized, trim_lowerAscii, reverse_lowerAscii,
    hunqualified, lowerAsciiString_ofList]

namespace Snapshot

variable (snapshot : Snapshot)

theorem isUserValueType_lowered (name : String) :
    snapshot.lowered.isUserValueType (lowerAsciiString name) = snapshot.isUserValueType name := by
  rw [isUserValueType, lowercase_lowerAsciiString, lowered, Array.any_map, isUserValueType]
  simp only [Function.comp_def, Declaration.lowercase_name_lowered]
  rfl

theorem isObjectType_lowered (type : String) :
    snapshot.lowered.isObjectType (lowerAsciiString type) = snapshot.isObjectType type := by
  have hvalue : sameName (lowerAsciiString (baseType type)) = sameName (baseType type) :=
    funext (sameName_lowerAsciiString_left (baseType type))
  rw [isObjectType, baseType_lowerAsciiString, isUserValueType_lowered, hvalue, isObjectType]

theorem requiresSet_lowered (declaration : Declaration) :
    snapshot.lowered.requiresSet declaration.lowered = snapshot.requiresSet declaration := by
  have htype : declaration.lowered.asType.any snapshot.lowered.isObjectType =
      declaration.asType.any snapshot.isObjectType := by
    change (declaration.asType.map lowerAsciiString).any snapshot.lowered.isObjectType = _
    cases declaration.asType with
    | none => rw [Option.map_none, Option.any_none, Option.any_none]
    | some type =>
      rw [Option.map_some, Option.any_some, Option.any_some, isObjectType_lowered]
  have hholds : declaration.lowered.holdsValue = declaration.holdsValue := rfl
  have harray : declaration.lowered.isArray = declaration.isArray := rfl
  rw [requiresSet, htype, hholds, harray, requiresSet]

end Snapshot

namespace ObjectVariableNotSet

theorem assignsNothing_lowered (tree : SyntaxTree) (statement : Nat) :
    assignsNothing tree.lowered statement = assignsNothing tree statement := by
  have htext (text : String) : sameName (trimString (lowerAsciiString text)) "Nothing" =
      sameName (trimString text) "Nothing" := by
    rw [trimString_lowerAsciiString, sameName_lowerAsciiString_left]
  rw [assignsNothing, SyntaxTree.childrenOfKind_lowered, assignsNothing]
  cases (tree.childrenOfKind statement .expression).getLast? with
  | none => rfl
  | some value =>
    exact SyntaxTree.any_text_lowered (p := fun text ↦ sameName (trimString text) "Nothing") htext
      tree value

theorem isOffending_lowered (settings : RuleSettings) (snapshot : Snapshot)
    (reference : Reference) :
    isOffending settings snapshot.lowered reference.lowered =
      isOffending settings snapshot reference := by
  have hassigns (tree : SyntaxTree) : assignsNothing tree.lowered = assignsNothing tree :=
    funext (assignsNothing_lowered tree)
  have hplace : reference.lowered.module = reference.module ∧
      reference.lowered.node = reference.node := ⟨rfl, rfl⟩
  rw [isOffending, hplace.1, hplace.2, Snapshot.tree?_lowered, isOffending]
  cases snapshot.tree? reference.module with
  | none => rfl
  | some tree =>
    simp only [Option.map_some, Option.any_some, SyntaxTree.ancestorOfKind?,
      SyntaxTree.ancestorWhere?_lowered, hassigns]

theorem offences_lowered (settings : RuleSettings) (snapshot : Snapshot)
    (declaration : Declaration) :
    offences settings snapshot.lowered declaration.lowered =
      (offences settings snapshot declaration).map Reference.lowered := by
  have hreferences : declaration.lowered.references.toList =
      declaration.references.toList.map Reference.lowered := Array.toList_map
  have hplain (reference : Reference) : reference.lowered.module = reference.module ∧
      reference.lowered.node = reference.node ∧
      reference.lowered.isAssignment = reference.isAssignment ∧
      reference.lowered.declaration = reference.declaration := ⟨rfl, rfl, rfl, rfl⟩
  unfold offences
  rw [Snapshot.requiresSet_lowered, hreferences]
  split
  · simp only [List.filter_map, Function.comp_def, isOffending_lowered, hplain,
      Snapshot.isIgnoring_lowered, Snapshot.isSome_declaration?_lowered]
  · rfl

theorem lowerAsciiString_message_lowered (reference : Reference) :
    lowerAsciiString (message reference.lowered) = lowerAsciiString (message reference) := by
  delta message
  simp only [Reference.lowered, lowerAsciiString_append, lowerAsciiString_lowerAsciiString]

theorem isCaseless (settings : RuleSettings) : (inspection settings).IsCaseless := by
  refine Inspection.isCaseless_ofDeclarations ?_ ?_
  · intro snapshot
    exact Array.toList_map
  · intro context _ declaration _
    simp only [offences_lowered, List.filterMap_map, List.map_filterMap, Function.comp_def,
      PassContext.referenceFinding?_lowered context info (lowerAsciiString_message_lowered _)]

end ObjectVariableNotSet

/-- Letter case does not matter to any built-in rule. -/
theorem Catalog.isCaseless_builtIn (config : Config) :
    ∀ rule ∈ builtIn.instantiateEnabled config, rule.IsCaseless :=
  forall_mem_instantiateEnabled_builtIn ObjectVariableNotSet.isCaseless
    ObsoleteLetStatement.isCaseless OptionBase.isCaseless OptionExplicit.isCaseless
    VariableNotUsed.isCaseless config

end VbaLint
