import VbaLint.Proofs.Pass.Configuration
import VbaLint.Proofs.Project.Navigation

/-!
# Nodes that rules flag

Besides modules without `Option Explicit` the built-in rules flag assignments with `Let`, statements
`Option Base`, items of variables and identifiers. A finding has the place of the node that it is made at.
-/

namespace VbaLint

open Tree

/-- The kinds of the nodes that stand for a piece of code and that a built-in rule flags. -/
def flaggedKinds : List NodeKind := [.letStmt, .optionBaseStmt, .variableSubStmt, .identifier]

/-- The finding is made at a node of a piece of code in the snapshot, and at its place. -/
def Finding.FlagsCode (finding : Finding) (snapshot : Snapshot) : Prop :=
  ∃ node, snapshot.node? finding.module finding.target.node = some node ∧ node.kind ∈ flaggedKinds ∧
    finding.selection = node.selection

namespace PassContext

variable {context : PassContext} {info : RuleInfo} {message : String} {finding : Finding}

theorem flagsCode_of_contextFinding? {place : Context}
    (h : context.contextFinding? info place message = some finding)
    (hkind : ∀ node, context.snapshot.node? place.module place.node = some node →
      node.kind ∈ flaggedKinds) : finding.FlagsCode context.snapshot := by
  obtain ⟨node, hnode, rfl⟩ := Option.map_eq_some_iff.1 h
  exact ⟨node, hnode, hkind node hnode, rfl⟩

end PassContext

namespace Inspection

variable {info : RuleInfo}

/-- In a snapshot that was read the rule finds pieces of code only, unless it is the one that asks for
`Option Explicit`. -/
def FlagsCode (rule : Inspection Collector) : Prop :=
  ∀ (context : PassContext) (state : Collector), context.snapshot.IsRead →
    ∀ findings, RuleInstance.outcome context ⟨rule, state⟩ = .found findings → ∀ finding ∈ findings,
      finding.inspection ≠ OptionExplicit.info.name → finding.FlagsCode context.snapshot

theorem flagsCode_ofTrees {select : SyntaxTree → List Nat} (message : ModuleName → String)
    (hselect : ∀ tree, ∀ id ∈ select tree, ∀ kind, tree.kind? id = some kind → kind ∈ flaggedKinds) :
    (ofTrees info select message).FlagsCode := by
  intro context state hread findings hfound finding hfinding _
  rw [outcome_ofTrees] at hfound
  cases hfound
  obtain ⟨place, hplace, hmade⟩ := List.mem_filterMap.1 hfinding
  obtain ⟨source, hsource, hplaced⟩ := List.mem_flatMap.1 (List.mem_of_mem_filter hplace)
  obtain ⟨id, hid, rfl⟩ := List.mem_map.1 hplaced
  refine context.flagsCode_of_contextFinding? hmade fun node hnode ↦ ?_
  rw [hread.node?_eq hsource] at hnode
  exact hselect _ id hid node.kind (by rw [SyntaxTree.kind?, hnode, Option.map_some])

end Inspection

theorem ObsoleteLetStatement.flagsCode : inspection.FlagsCode := by
  refine Inspection.flagsCode_ofTrees _ fun tree id hid kind hkind ↦ ?_
  cases (kind?_of_mem_select hid).symm.trans hkind
  decide

theorem OptionBase.flagsCode : inspection.FlagsCode := by
  refine Inspection.flagsCode_ofTrees _ fun tree id hid kind hkind ↦ ?_
  cases (kind?_of_mem_select hid).symm.trans hkind
  decide

theorem OptionExplicit.flagsCode : inspection.FlagsCode := by
  intro context state _ findings hfound finding hfinding hother
  rw [inspection, Inspection.outcome_ofTrees] at hfound
  cases hfound
  obtain ⟨place, -, hmade⟩ := List.mem_filterMap.1 hfinding
  exact absurd (PassContext.inspection_of_contextFinding? hmade) hother

theorem VariableNotUsed.flagsCode : inspection.FlagsCode := by
  intro context state hread findings hfound finding hfinding _
  rw [inspection, Inspection.outcome_ofDeclarations] at hfound
  cases hfound
  obtain ⟨declaration, hcandidate, hmade⟩ := List.mem_flatMap.1 hfinding
  obtain ⟨hmem, hunused⟩ := List.mem_filter.1 hcandidate
  unfold find at hmade
  split at hmade
  · cases hmade
  · refine context.flagsCode_of_contextFinding? (Option.mem_toList.1 hmade) fun node hnode ↦ ?_
    rw [hread.kind_of_variable (Array.mem_toList_iff.1 hmem) (kind_of_isUnused hunused) hnode]
    decide

theorem ObjectVariableNotSet.flagsCode (settings : RuleSettings) : (inspection settings).FlagsCode := by
  intro context state hread findings hfound finding hfinding _
  rw [inspection, Inspection.outcome_ofDeclarations] at hfound
  cases hfound
  obtain ⟨declaration, hdeclaration, hmade⟩ := List.mem_flatMap.1 hfinding
  obtain ⟨id, hid, hat⟩ := Array.mem_iff_getElem.1 (Array.mem_toList_iff.1 hdeclaration)
  obtain ⟨reference, hoffence, hmade⟩ := List.mem_filterMap.1 hmade
  have hreference : reference ∈ declaration.references := by
    unfold offences at hoffence
    split at hoffence
    · exact Array.mem_toList_iff.1 (List.mem_of_mem_filter hoffence)
    · cases hoffence
  obtain ⟨-, node, hnode, hkind, hselection, -⟩ :=
    hread.reference_known (Array.getElem?_eq_some_iff.2 ⟨hid, hat⟩) hreference
  obtain ⟨-, hfinding⟩ := Option.ite_none_right_eq_some.1 hmade
  cases hfinding
  exact ⟨node, hnode, by rw [hkind]; decide, hselection.symm⟩

theorem Catalog.flagsCode_builtIn (config : Config) :
    ∀ rule ∈ builtIn.instantiateEnabled config, rule.FlagsCode :=
  forall_mem_instantiateEnabled_builtIn ObjectVariableNotSet.flagsCode ObsoleteLetStatement.flagsCode
    OptionBase.flagsCode OptionExplicit.flagsCode VariableNotUsed.flagsCode config

/-- Each finding of a pass of the built-in rules flags a piece of code, or a module that lacks
`Option Explicit`. -/
theorem Runner.flagsCode_builtInSet {config : Config} {snapshot : Snapshot} (hread : snapshot.IsRead)
    {finding : Finding} (h : finding ∈ (builtInSet config snapshot).findings)
    (hother : finding.inspection ≠ OptionExplicit.info.name) : finding.FlagsCode snapshot := by
  obtain ⟨⟨rule, state⟩, hrule, hfinding⟩ := List.mem_flatMap.1 h
  obtain ⟨findings, houtcome, hfound⟩ := RunOutcome.exists_eq_found hfinding
  have hflags := forall_mem_ofCatalog (Catalog.flagsCode_builtIn config) _ hrule
  exact hflags _ state hread findings houtcome finding hfound hother

end VbaLint
