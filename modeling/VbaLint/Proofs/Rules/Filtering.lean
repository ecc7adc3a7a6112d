import VbaLint.Proofs.Inspection.Filtering
import VbaLint.Rules.Catalog

/-!
# The built-in rules and annotations

For every rule of the built-in catalog annotations are a filter, whether it looks at trees or at
declarations: each tests a finding under its own name, at the module and the node of the finding.
-/

namespace VbaLint

open Inspection

namespace ObjectVariableNotSet

@[simp]
theorem isOffending_bare (settings : RuleSettings) (snapshot : Snapshot) (reference : Reference) :
    isOffending settings snapshot.bare reference = isOffending settings snapshot reference := by
  rw [isOffending, Snapshot.tree?_keepingNotes, isOffending]

@[simp]
theorem requiresSet_bare (snapshot : Snapshot) (declaration : Declaration) :
    snapshot.bare.requiresSet declaration = snapshot.requiresSet declaration := rfl

/-- The references that are reported are those that would be, but for annotations. -/
theorem offences_eq_filter (settings : RuleSettings) (snapshot : Snapshot)
    (declaration : Declaration) :
    offences settings snapshot declaration =
      (offences settings snapshot.bare declaration).filter fun reference ↦
        !snapshot.isIgnoring reference.module reference.node info.name := by
  simp only [offences, requiresSet_bare, isOffending_bare, Snapshot.isIgnoring_bare,
    Snapshot.declaration?_keepingNotes, Bool.not_false, Bool.and_true]
  split
  · rw [List.filter_filter]
    apply List.filter_congr
    intro reference _
    exact Bool.and_comm _ _
  · rfl

theorem filtersOnly (settings : RuleSettings) : (inspection settings).FiltersOnly := by
  refine filtersOnly_ofDeclarations (fun _ ↦ rfl) ?_
  intro context declaration
  simp only [PassContext.referenceFinding?_bare]
  rw [filter_filterMap_of_agree, ← offences_eq_filter]
  intro reference finding hfinding
  exact PassContext.reports_of_referenceFinding? hfinding

end ObjectVariableNotSet

namespace VariableNotUsed

theorem filtersOnly : inspection.FiltersOnly := by
  refine filtersOnly_ofDeclarations (fun _ ↦ rfl) ?_
  intro context declaration
  simp only [find, Snapshot.isIgnoring_bare, Bool.false_eq_true, if_false,
    PassContext.contextFinding?_bare]
  cases hfinding : context.contextFinding? info ⟨declaration.module, declaration.node⟩
      (message declaration) with
  | none => simp
  | some finding =>
    have hreports := PassContext.reports_of_contextFinding? hfinding
    rw [Option.toList_some, List.filter_cons, List.filter_nil, hreports]
    cases context.snapshot.isIgnoring declaration.module declaration.node info.name <;> rfl

end VariableNotUsed

namespace Catalog

/-- A property of all five rules, however they are set up, is one of all that are enabled. -/
theorem forall_mem_instantiateEnabled_builtIn {P : Inspection Collector → Prop}
    (hobject : ∀ settings, P (ObjectVariableNotSet.inspection settings))
    (hlet : P ObsoleteLetStatement.inspection) (hbase : P OptionBase.inspection)
    (hexplicit : P OptionExplicit.inspection) (hunused : P VariableNotUsed.inspection)
    (config : Config) : ∀ rule ∈ builtIn.instantiateEnabled config, P rule := by
  intro rule hrule
  obtain ⟨entry, hentry, rfl⟩ := List.mem_map.1 hrule
  have hlisted := NameTable.mem_ofList (List.mem_filter.1 hentry).1
  simp only [List.mem_cons, List.not_mem_nil, or_false] at hlisted
  rcases hlisted with rfl | rfl | rfl | rfl | rfl
  · exact hobject _
  · exact hlet
  · exact hbase
  · exact hexplicit
  · exact hunused

/-- Annotations only take findings away from the built-in rules. -/
theorem filtersOnly_builtIn (config : Config) :
    ∀ rule ∈ builtIn.instantiateEnabled config, rule.FiltersOnly :=
  forall_mem_instantiateEnabled_builtIn ObjectVariableNotSet.filtersOnly (filtersOnly_ofTrees _ _)
    (filtersOnly_ofTrees _ _) (filtersOnly_ofTrees _ _) VariableNotUsed.filtersOnly config

/-- The built-in rules end with findings if nobody cancels them. -/
theorem endsWell_builtIn (config : Config) :
    ∀ rule ∈ builtIn.instantiateEnabled config, rule.EndsWell :=
  forall_mem_instantiateEnabled_builtIn (fun _ ↦ endsWell_ofDeclarations _ _)
    (endsWell_ofTrees _ _) (endsWell_ofTrees _ _) (endsWell_ofTrees _ _)
    (endsWell_ofDeclarations _ _) config

end Catalog

end VbaLint
