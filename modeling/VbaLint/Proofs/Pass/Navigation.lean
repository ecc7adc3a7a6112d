import VbaLint.Proofs.Pass.Cancellation
import VbaLint.Proofs.Pass.Recycling
import VbaLint.Proofs.Project.Navigation
import VbaLint.Proofs.Rules.Locating

/-!
# Findings and what they point at

A finding names a node, and perhaps a declaration, by their numbers. If the snapshot of a pass is closed,
the numbers in whatever the built-in rules find lead to a node at the place of the finding and to a
declaration that lists the reference.
-/

namespace VbaLint

open Tree

/-- What the finding points at is in the snapshot, whose version it carries: a node at the place of the
finding, and a declaration with the reference that is found. -/
structure Finding.ResolvesIn (finding : Finding) (snapshot : Snapshot) : Prop where
  version_eq : finding.snapshotVersion = snapshot.version
  module_known : (snapshot.module? finding.module).isSome = true
  node_known : ∃ node, snapshot.node? finding.module finding.target.node = some node ∧
    node.selection = finding.selection
  declaration_known {module : ModuleName} {node : Nat} {selection : Source.Selection}
    {identifier : String} {id : Nat} :
    finding.target = .reference module node selection identifier id →
      ∃ declaration isAssignment, snapshot.declaration? id = some declaration ∧
        ⟨module, node, selection, identifier, isAssignment, id⟩ ∈ declaration.references

theorem Snapshot.isSome_module?_of_node? {snapshot : Snapshot} {name : ModuleName} {id : Nat}
    {node : Node} (h : snapshot.node? name id = some node) :
    (snapshot.module? name).isSome = true := by
  obtain ⟨tree, htree, -⟩ := Option.bind_eq_some_iff.1 h
  obtain ⟨source, hsource, -⟩ := Option.map_eq_some_iff.1 htree
  exact Option.isSome_of_eq_some hsource

namespace PassContext

variable {context : PassContext} {info : RuleInfo} {message : String} {finding : Finding}

theorem resolvesIn_of_contextFinding? {place : Context}
    (h : context.contextFinding? info place message = some finding) :
    finding.ResolvesIn context.snapshot := by
  obtain ⟨node, hnode, rfl⟩ := Option.map_eq_some_iff.1 h
  refine ⟨rfl, Snapshot.isSome_module?_of_node? hnode, ⟨node, hnode, rfl⟩, fun htarget ↦ ?_⟩
  cases htarget

theorem resolvesIn_of_referenceFinding? (hclosed : context.snapshot.IsClosed)
    {declaration : Declaration} (hdeclaration : declaration ∈ context.snapshot.declarations)
    {reference : Reference} (hreference : reference ∈ declaration.references)
    (h : context.referenceFinding? info reference message = some finding) :
    finding.ResolvesIn context.snapshot := by
  obtain ⟨id, hat⟩ := Array.mem_iff_getElem?.1 hdeclaration
  obtain ⟨node, hnode, -, hselection, -⟩ := hclosed.identifier_known hat hreference
  obtain ⟨-, hfinding⟩ := Option.ite_none_right_eq_some.1 h
  cases hfinding
  refine ⟨rfl, Snapshot.isSome_module?_of_node? hnode, ⟨node, hnode, hselection⟩, fun htarget ↦ ?_⟩
  cases htarget
  refine ⟨declaration, reference.isAssignment, ?_, hreference⟩
  rw [hclosed.declaration_eq hat hreference]
  exact hat

end PassContext

/-- In a closed snapshot all findings of the rule lead somewhere. -/
def Inspection.FindsResolving {σ : Type} (rule : Inspection σ) : Prop :=
  ∀ context bench findings, context.snapshot.IsClosed →
    (rule.run context bench).1 = .found findings →
      ∀ finding ∈ findings, finding.ResolvesIn context.snapshot

theorem Inspection.findsResolving_ofTrees {info : RuleInfo} (select : SyntaxTree → List Nat)
    (message : ModuleName → String) : (ofTrees info select message).FindsResolving := by
  intro context bench findings _ hfound finding hfinding
  obtain ⟨place, hplace⟩ := exists_of_found_ofTrees hfound hfinding
  exact PassContext.resolvesIn_of_contextFinding? hplace

theorem ObjectVariableNotSet.findsResolving (settings : RuleSettings) :
    (inspection settings).FindsResolving := by
  intro context bench findings hclosed hfound finding hfinding
  obtain ⟨declaration, hdeclaration, hmem⟩ :=
    Inspection.exists_of_found_ofDeclarations hfound hfinding
  obtain ⟨reference, hoffence, hreference⟩ := List.mem_filterMap.1 hmem
  have hlisted : reference ∈ declaration.references := by
    unfold offences at hoffence
    split at hoffence
    · exact Array.mem_toList_iff.1 (List.mem_of_mem_filter hoffence)
    · cases hoffence
  exact PassContext.resolvesIn_of_referenceFinding? hclosed (Array.mem_toList_iff.1 hdeclaration)
    hlisted hreference

theorem VariableNotUsed.findsResolving : inspection.FindsResolving := by
  intro context bench findings _ hfound finding hfinding
  obtain ⟨declaration, -, hmem⟩ := Inspection.exists_of_found_ofDeclarations hfound hfinding
  unfold find at hmem
  split at hmem
  · cases hmem
  · exact PassContext.resolvesIn_of_contextFinding? (Option.mem_toList.1 hmem)

theorem Catalog.findsResolving_builtIn (config : Config) :
    ∀ rule ∈ builtIn.instantiateEnabled config, rule.FindsResolving :=
  forall_mem_instantiateEnabled_builtIn ObjectVariableNotSet.findsResolving
    (Inspection.findsResolving_ofTrees _ _) (Inspection.findsResolving_ofTrees _ _)
    (Inspection.findsResolving_ofTrees _ _) VariableNotUsed.findsResolving config

namespace Runner

variable {σ : Type} {runner : Runner σ} {order : List Nat} {snapshot : Snapshot} {signal : Signal}
  {set : ResultSet}

/-- A pass of cooperating rules that has a result set has the one of a pass that nobody cancels. -/
theorem eq_ofOutcomes_of_ok (hrules : ∀ rule ∈ runner.rules, rule.inspection.Cooperates)
    (h : (runner.runPassIn order snapshot signal).1 = .ok set) :
    set = .ofOutcomes ⟨snapshot, runner.severities⟩ runner.rules := by
  cases hset : signal.isCancelled with
  | true =>
    rw [runPassIn_of_isCancelled hset] at h
    cases h
  | false =>
    obtain ⟨courses, hcourses⟩ := exists_forall₂_takes hrules ⟨snapshot, runner.severities⟩
    obtain ⟨looks?, -, hraces⟩ := exists_looks hcourses
    obtain ⟨values, hmoves, hvalues⟩ := moves_execution hcourses order signal
    have hverdict := (hraces signal.next values _ hmoves).1
    rw [runPassIn_of_clear hset, close_outcome, ← hvalues, hverdict] at h
    split at h
    · exact (Except.ok.inj h).symm
    · cases h

theorem resolvesIn_of_ok (hrules : ∀ rule ∈ runner.rules, rule.inspection.Cooperates)
    (hresolving : ∀ rule ∈ runner.rules, rule.inspection.FindsResolving)
    (hclosed : snapshot.IsClosed) (h : (runner.runPassIn order snapshot signal).1 = .ok set)
    {finding : Finding} (hfinding : finding ∈ set.findings) : finding.ResolvesIn snapshot := by
  rw [eq_ofOutcomes_of_ok hrules h] at hfinding
  obtain ⟨rule, hrule, hmem⟩ := List.mem_flatMap.1 hfinding
  obtain ⟨findings, houtcome, hfound⟩ := RunOutcome.exists_eq_found hmem
  exact hresolving rule hrule _ _ findings hclosed houtcome finding hfound

end Runner

/-- A snapshot of texts is closed under navigation, and so are the findings of every pass over it that
runs the built-in rules, however they are configured and in whatever state earlier passes left them. -/
theorem snapshots_are_closed_under_navigation (project : String) (modules : List ModuleText)
    (version : Nat) :
    let snapshot := (Assembly.ofModules project modules).build version
    snapshot.IsClosed ∧
      ∀ config runner, Runner.SameRules runner (.ofCatalog .builtIn config) →
        ∀ order signal set, (runner.runPassIn order snapshot signal).1 = .ok set →
          set.snapshotVersion = version ∧
            ∀ finding ∈ set.findings, finding.snapshotVersion = version ∧
              finding.ResolvesIn snapshot := by
  intro snapshot
  have hclosed : snapshot.IsClosed := Assembly.isClosed_build project modules version
  have hversion : snapshot.version = version := rfl
  refine ⟨hclosed, fun config runner hsame order signal set h ↦ ⟨?_, fun finding hfinding ↦ ?_⟩⟩
  · rw [Runner.snapshotVersion_runPassIn h, hversion]
  · have hresolves := Runner.resolvesIn_of_ok
      (hsame.forall_mem (Runner.forall_mem_ofCatalog (Catalog.cooperates_builtIn config)))
      (hsame.forall_mem (Runner.forall_mem_ofCatalog (Catalog.findsResolving_builtIn config)))
      hclosed h hfinding
    exact ⟨hresolves.version_eq.trans hversion, hresolves⟩

end VbaLint
