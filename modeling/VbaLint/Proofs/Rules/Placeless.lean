import VbaLint.Proofs.Project.Placeless
import VbaLint.Proofs.Rules.Locating

/-!
# Rules over snapshots without places

A built-in rule passes the places of nodes and references on to its findings, and does nothing else with
them. In a snapshot without places it finds the same, in the same order.
-/

namespace VbaLint

open Source Text Tree

/-! ## Suppression -/

namespace Snapshot

variable (snapshot : Snapshot) (module : ModuleName)

theorem module?_placeless :
    snapshot.placeless.module? module = (snapshot.module? module).map ModuleSource.placeless :=
  List.find?_map

theorem tree?_placeless :
    snapshot.placeless.tree? module = (snapshot.tree? module).map SyntaxTree.placeless := by
  rw [tree?, module?_placeless, tree?, Option.map_map, Option.map_map]
  rfl

theorem node?_placeless (node : Nat) :
    snapshot.placeless.node? module node = (snapshot.node? module node).map Node.placeless := by
  rw [node?, tree?_placeless, node?]
  cases snapshot.tree? module with
  | none => rfl
  | some tree => exact tree.node?_placeless node

theorem isSome_declaration?_placeless (id : Nat) :
    (snapshot.placeless.declaration? id).isSome = (snapshot.declaration? id).isSome := by
  simp [declaration?, placeless]

/-- The same rules are silenced at the same nodes. -/
theorem isIgnoring_placeless (node : Nat) (rule : String) :
    snapshot.placeless.isIgnoring module node rule = snapshot.isIgnoring module node rule := by
  have hscope : snapshot.placeless.suppressingScope? module node rule =
      snapshot.suppressingScope? module node rule := by
    unfold suppressingScope?
    rw [module?_placeless]
    cases snapshot.module? module with
    | none => rfl
    | some source =>
      have hshape := source.parsed.tree.sameShape_placeless
      have hannotations : source.placeless.parsed.annotations =
          source.parsed.annotations.map Annotation.placeless := rfl
      have htree : source.placeless.parsed.tree = source.parsed.tree.placeless := rfl
      have hkind : source.parsed.tree.placeless.kind? = source.parsed.tree.kind? :=
        funext hshape.kind?_eq
      have hsilences (p : Annotation → Bool) (hp : p ∘ Annotation.placeless = p) :
          (source.parsed.annotations.map Annotation.placeless).any p = source.parsed.annotations.any p := by
        rw [List.any_map, hp]
      have hnode : (fun id ↦ (source.parsed.annotations.map Annotation.placeless).any
          (·.silencesNode id rule)) = fun id ↦ source.parsed.annotations.any (·.silencesNode id rule) :=
        funext fun id ↦ hsilences _ rfl
      dsimp only [Option.map_some, Option.bind_eq_bind, Option.bind_some]
      rw [hannotations, htree, hshape.size_eq, hshape.ancestors_eq, hkind, hnode, hsilences _ rfl]
  rw [isIgnoring, hscope, isIgnoring]

end Snapshot

/-! ## Findings -/

def Target.placeless : Target → Target
  | .context module node _ => .context module node .unset
  | .reference module node _ identifier declaration => .reference module node .unset identifier declaration

def Finding.placeless (finding : Finding) : Finding :=
  { finding with
    target := finding.target.placeless
    snapshotVersion := 0 }

namespace PassContext

abbrev placeless (context : PassContext) : PassContext :=
  { context with snapshot := context.snapshot.placeless }

variable (context : PassContext) (info : RuleInfo) (message : String)

theorem contextFinding?_placeless (place : Context) :
    (context.placeless.contextFinding? info place message).map Finding.placeless =
      (context.contextFinding? info place message).map Finding.placeless := by
  rw [contextFinding?, Snapshot.node?_placeless, contextFinding?]
  cases context.snapshot.node? place.module place.node <;> rfl

theorem referenceFinding?_placeless (reference : Reference) :
    (context.placeless.referenceFinding? info reference.placeless message).map Finding.placeless =
      (context.referenceFinding? info reference message).map Finding.placeless := by
  have hcontains (module : ModuleName) (node : Nat) :
      context.snapshot.placeless.containsNode module node = context.snapshot.containsNode module node := by
    rw [Snapshot.containsNode, Snapshot.node?_placeless, Snapshot.containsNode, Option.isSome_map]
  unfold referenceFinding?
  rw [hcontains]
  change Option.map _ (if context.snapshot.containsNode reference.module reference.node then _ else _) = _
  split <;> rfl

end PassContext

/-! ## Rules -/

namespace Inspection

variable {info : RuleInfo}

/-- In a snapshot without places the rule finds what it finds in the snapshot, without places. -/
def IgnoresPlaces (rule : Inspection Collector) : Prop :=
  ∀ (context : PassContext) (state : Collector),
    (RuleInstance.outcome context.placeless ⟨rule, state⟩).findings.map Finding.placeless =
      (RuleInstance.outcome context ⟨rule, state⟩).findings.map Finding.placeless

theorem ignoresPlaces_ofTrees {select : SyntaxTree → List Nat} (message : ModuleName → String)
    (hselect : ∀ tree, select tree.placeless = select tree) :
    (ofTrees info select message).IgnoresPlaces := by
  intro context state
  have hplaces : (context.placeless.snapshot.modules.flatMap fun module ↦
      (select module.parsed.tree).map (⟨module.name, ·⟩ : Nat → Context)) =
      context.snapshot.modules.flatMap fun module ↦
        (select module.parsed.tree).map (⟨module.name, ·⟩) := by
    change (context.snapshot.modules.map ModuleSource.placeless).flatMap _ = _
    simp only [List.flatMap_map, ModuleSource.placeless, ParsedModule.placeless, hselect]
  rw [outcome_ofTrees, outcome_ofTrees, hplaces]
  simp only [Snapshot.isIgnoring_placeless, RunOutcome.findings, List.map_filterMap,
    PassContext.contextFinding?_placeless]

theorem ignoresPlaces_ofDeclarations {candidates : Snapshot → List Declaration}
    {find : PassContext → Declaration → List Finding}
    (hcandidates : ∀ snapshot,
      candidates snapshot.placeless = (candidates snapshot).map Declaration.placeless)
    (hfind : ∀ context declaration,
      (find context.placeless declaration.placeless).map Finding.placeless =
        (find context declaration).map Finding.placeless) :
    (ofDeclarations info candidates find).IgnoresPlaces := by
  intro context state
  rw [outcome_ofDeclarations, outcome_ofDeclarations, hcandidates]
  simp only [RunOutcome.findings, List.flatMap_map, List.map_flatMap, hfind]

end Inspection

/-! ## The built-in rules -/

namespace ObsoleteLetStatement

theorem ignoresPlaces : inspection.IgnoresPlaces := by
  refine Inspection.ignoresPlaces_ofTrees _ fun tree ↦ ?_
  simp only [select, tree.sameShape_placeless.visits_eq, tree.any_text_placeless]

end ObsoleteLetStatement

namespace OptionBase

theorem ignoresPlaces : inspection.IgnoresPlaces := by
  refine Inspection.ignoresPlaces_ofTrees _ fun tree ↦ ?_
  simp only [select, tree.sameShape_placeless.visits_eq, tree.any_text_placeless]

end OptionBase

namespace OptionExplicit

theorem ignoresPlaces : inspection.IgnoresPlaces := by
  refine Inspection.ignoresPlaces_ofTrees _ fun tree ↦ ?_
  have hvisit : Seen.visit tree.placeless = Seen.visit tree := by
    funext seen visit
    unfold Seen.visit
    simp only [tree.sameShape_placeless.parent?_eq]
  rw [select, select, hvisit, tree.sameShape_placeless.visits_eq]

end OptionExplicit

theorem Declaration.reads_placeless (declaration : Declaration) :
    declaration.placeless.reads = declaration.reads.map Reference.placeless := by
  rw [reads, placeless, Array.toList_map, List.filter_map, reads]
  rfl

namespace VariableNotUsed

theorem isUnused_placeless (declaration : Declaration) :
    isUnused declaration.placeless = isUnused declaration := by
  rw [isUnused, Declaration.reads_placeless, List.isEmpty_map, isUnused]
  rfl

theorem ignoresPlaces : inspection.IgnoresPlaces := by
  refine Inspection.ignoresPlaces_ofDeclarations (fun snapshot ↦ ?_) fun context declaration ↦ ?_
  · rw [Snapshot.placeless, Array.toList_map, List.filter_map]
    congr 2
    funext declaration
    exact isUnused_placeless declaration
  · have hplace : declaration.placeless.module = declaration.module ∧
        declaration.placeless.node = declaration.node ∧ message declaration.placeless = message declaration :=
      ⟨rfl, rfl, rfl⟩
    unfold find
    rw [hplace.1, hplace.2.1, hplace.2.2, Snapshot.isIgnoring_placeless]
    split
    · rfl
    · rw [← Option.toList_map, PassContext.contextFinding?_placeless, Option.toList_map]

end VariableNotUsed

theorem Snapshot.requiresSet_placeless (snapshot : Snapshot) (declaration : Declaration) :
    snapshot.placeless.requiresSet declaration.placeless = snapshot.requiresSet declaration := by
  have husers (name : String) : snapshot.placeless.isUserValueType name = snapshot.isUserValueType name := by
    rw [isUserValueType, placeless, Array.any_map, isUserValueType]
    rfl
  have hobjects (type : String) : snapshot.placeless.isObjectType type = snapshot.isObjectType type := by
    rw [isObjectType, husers, isObjectType]
  have htype : declaration.placeless.asType.any snapshot.placeless.isObjectType =
      declaration.asType.any snapshot.isObjectType := congrArg (declaration.asType.any ·) (funext hobjects)
  rw [requiresSet, htype]
  rfl

namespace ObjectVariableNotSet

theorem isOffending_placeless (settings : RuleSettings) (snapshot : Snapshot) (reference : Reference) :
    isOffending settings snapshot.placeless reference.placeless =
      isOffending settings snapshot reference := by
  have hassigns (tree : SyntaxTree) : assignsNothing tree.placeless = assignsNothing tree := by
    funext statement
    rw [assignsNothing, tree.sameShape_placeless.childrenOfKind_eq, assignsNothing]
    cases (tree.childrenOfKind statement .expression).getLast? with
    | none => rfl
    | some value => exact tree.any_text_placeless value fun text ↦ sameName (trimString text) "Nothing"
  have hplace : reference.placeless.module = reference.module ∧ reference.placeless.node = reference.node :=
    ⟨rfl, rfl⟩
  rw [isOffending, hplace.1, hplace.2, Snapshot.tree?_placeless, isOffending]
  cases snapshot.tree? reference.module with
  | none => rfl
  | some tree =>
    simp only [Option.map_some, Option.any_some, SyntaxTree.ancestorOfKind?,
      tree.sameShape_placeless.ancestorWhere?_eq, hassigns]

theorem offences_placeless (settings : RuleSettings) (snapshot : Snapshot) (declaration : Declaration) :
    offences settings snapshot.placeless declaration.placeless =
      (offences settings snapshot declaration).map Reference.placeless := by
  have hreferences : declaration.placeless.references.toList =
      declaration.references.toList.map Reference.placeless := Array.toList_map
  have hplain (reference : Reference) : reference.placeless.module = reference.module ∧
      reference.placeless.node = reference.node ∧
      reference.placeless.isAssignment = reference.isAssignment ∧
      reference.placeless.declaration = reference.declaration := ⟨rfl, rfl, rfl, rfl⟩
  unfold offences
  rw [Snapshot.requiresSet_placeless, hreferences]
  split
  · simp only [List.filter_map, Function.comp_def, isOffending_placeless, hplain,
      Snapshot.isIgnoring_placeless, Snapshot.isSome_declaration?_placeless]
  · rfl

theorem ignoresPlaces (settings : RuleSettings) : (inspection settings).IgnoresPlaces := by
  refine Inspection.ignoresPlaces_ofDeclarations (fun _ ↦ Array.toList_map) fun context declaration ↦ ?_
  have hmessage (reference : Reference) : message reference.placeless = message reference := rfl
  simp only [offences_placeless, List.filterMap_map, List.map_filterMap, Function.comp_def, hmessage,
    PassContext.referenceFinding?_placeless]

end ObjectVariableNotSet

theorem Catalog.ignoresPlaces_builtIn (config : Config) :
    ∀ rule ∈ builtIn.instantiateEnabled config, rule.IgnoresPlaces :=
  forall_mem_instantiateEnabled_builtIn ObjectVariableNotSet.ignoresPlaces
    ObsoleteLetStatement.ignoresPlaces OptionBase.ignoresPlaces OptionExplicit.ignoresPlaces
    VariableNotUsed.ignoresPlaces config

/-- In a snapshot without places the built-in rules find what they find in the snapshot, without places. -/
theorem Runner.placeless_findings_builtInSet (config : Config) (snapshot : Snapshot) :
    (builtInSet config snapshot.placeless).findings.map Finding.placeless =
      (builtInSet config snapshot).findings.map Finding.placeless := by
  apply map_findings_builtInSet
  intro rule hmem
  exact forall_mem_ofCatalog (Catalog.ignoresPlaces_builtIn config) rule hmem
    ⟨snapshot, config.overrides⟩ rule.state

end VbaLint
