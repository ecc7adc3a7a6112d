import VbaLint.Proofs.Pass.AnnotationFilter
import VbaLint.Proofs.Tree.Preorder

/-!
# Where findings lie

Whatever a built-in rule finds lies at a node of the snapshot that it looks at, and carries the version
of that snapshot. A module whose declarations have no `Option Explicit` and that has no annotations is
always found.
-/

namespace VbaLint

open Tree

/-- The finding points at a node of the snapshot and carries its version. -/
structure Finding.LiesIn (finding : Finding) (snapshot : Snapshot) : Prop where
  node : snapshot.containsNode finding.module finding.target.node = true
  version : finding.snapshotVersion = snapshot.version

/-- The module that a finding of a snapshot lies in is one of the snapshot. -/
theorem Finding.LiesIn.exists_module {finding : Finding} {snapshot : Snapshot}
    (h : finding.LiesIn snapshot) : ∃ source, snapshot.module? finding.module = some source := by
  have hnode := h.node
  unfold Snapshot.containsNode Snapshot.node? Snapshot.tree? at hnode
  cases hmodule : snapshot.module? finding.module with
  | none => simp [hmodule] at hnode
  | some source => exact ⟨source, rfl⟩

namespace PassContext

variable {context : PassContext} {info : RuleInfo} {message : String} {finding : Finding}

theorem liesIn_of_contextFinding? {place : Context}
    (h : context.contextFinding? info place message = some finding) :
    finding.LiesIn context.snapshot := by
  obtain ⟨node, hnode, rfl⟩ := Option.map_eq_some_iff.1 h
  refine ⟨?_, rfl⟩
  change (context.snapshot.node? place.module place.node).isSome = true
  rw [hnode, Option.isSome_some]

theorem liesIn_of_referenceFinding? {reference : Reference}
    (h : context.referenceFinding? info reference message = some finding) :
    finding.LiesIn context.snapshot := by
  obtain ⟨hnode, hfinding⟩ := Option.ite_none_right_eq_some.1 h
  cases hfinding
  exact ⟨hnode, rfl⟩

end PassContext

/-! ## Rules -/

namespace Inspection

variable {σ : Type} {info : RuleInfo}

/-- All findings of the rule lie in the snapshot that it looks at. -/
def FindsInside (rule : Inspection σ) : Prop :=
  ∀ context bench findings, (rule.run context bench).1 = .found findings →
    ∀ finding ∈ findings, finding.LiesIn context.snapshot

variable {context : PassContext} {findings : List Finding} {finding : Finding}

/-- What a rule that looks at trees finds is the finding at some node. -/
theorem exists_of_found_ofTrees {select : SyntaxTree → List Nat} {message : ModuleName → String}
    {bench : Bench Collector}
    (hfound : ((ofTrees info select message).run context bench).1 = .found findings)
    (hfinding : finding ∈ findings) :
    ∃ place : Context, context.contextFinding? info place (message place.module) = some finding := by
  simp only [ofTrees] at hfound
  cases hstop : (bench.state.collect select bench.signal context.snapshot).1 with
  | some reason =>
    rw [hstop] at hfound
    cases reason <;> cases hfound
  | none =>
    rw [hstop] at hfound
    cases hfound
    obtain ⟨place, -, hplace⟩ := List.mem_filterMap.1 hfinding
    exact ⟨place, hplace⟩

theorem findsInside_ofTrees (select : SyntaxTree → List Nat) (message : ModuleName → String) :
    (ofTrees info select message).FindsInside := by
  intro context bench findings hfound finding hfinding
  obtain ⟨place, hplace⟩ := exists_of_found_ofTrees hfound hfinding
  exact PassContext.liesIn_of_contextFinding? hplace

/-- What a search finds was found at one of the declarations. -/
theorem exists_of_mem_searchDeclarations {find : Declaration → List Finding}
    {declarations : List Declaration} {signal : Signal} {found : List Finding}
    (h : (searchDeclarations find declarations signal).1 = some found)
    (hfinding : finding ∈ found) : ∃ declaration ∈ declarations, finding ∈ find declaration := by
  induction declarations generalizing signal found with
  | nil =>
    cases h
    cases hfinding
  | cons declaration rest ih =>
    rw [searchDeclarations] at h
    split at h
    · cases h
    · obtain ⟨later, hlater, rfl⟩ := Option.map_eq_some_iff.1 h
      rcases List.mem_append.1 hfinding with hhere | hthere
      · exact ⟨declaration, List.mem_cons_self, hhere⟩
      · obtain ⟨other, hother, hmem⟩ := ih hlater hthere
        exact ⟨other, List.mem_cons_of_mem declaration hother, hmem⟩

/-- What a rule that looks at declarations finds is found at one of its candidates. -/
theorem exists_of_found_ofDeclarations {candidates : Snapshot → List Declaration}
    {find : PassContext → Declaration → List Finding} {bench : Bench Collector}
    (hfound : ((ofDeclarations info candidates find).run context bench).1 = .found findings)
    (hfinding : finding ∈ findings) :
    ∃ declaration ∈ candidates context.snapshot, finding ∈ find context declaration := by
  simp only [ofDeclarations] at hfound
  cases hsearch : (searchDeclarations (find context) (candidates context.snapshot) bench.signal).1 with
  | none =>
    rw [hsearch] at hfound
    cases hfound
  | some found =>
    rw [hsearch] at hfound
    cases hfound
    exact exists_of_mem_searchDeclarations hsearch hfinding

theorem findsInside_ofDeclarations {candidates : Snapshot → List Declaration}
    {find : PassContext → Declaration → List Finding}
    (hfind : ∀ context declaration, ∀ finding ∈ find context declaration,
      finding.LiesIn context.snapshot) :
    (ofDeclarations info candidates find).FindsInside := by
  intro context bench findings hfound finding hfinding
  obtain ⟨declaration, -, hmem⟩ := exists_of_found_ofDeclarations hfound hfinding
  exact hfind context declaration finding hmem

end Inspection

theorem ObjectVariableNotSet.findsInside (settings : RuleSettings) :
    (inspection settings).FindsInside := by
  apply Inspection.findsInside_ofDeclarations
  intro context declaration finding hfinding
  obtain ⟨reference, -, hreference⟩ := List.mem_filterMap.1 hfinding
  exact PassContext.liesIn_of_referenceFinding? hreference

theorem VariableNotUsed.findsInside : inspection.FindsInside := by
  apply Inspection.findsInside_ofDeclarations
  intro context declaration finding hfinding
  unfold find at hfinding
  split at hfinding
  · cases hfinding
  · exact PassContext.liesIn_of_contextFinding? (Option.mem_toList.1 hfinding)

theorem Catalog.findsInside_builtIn (config : Config) :
    ∀ rule ∈ builtIn.instantiateEnabled config, rule.FindsInside :=
  forall_mem_instantiateEnabled_builtIn ObjectVariableNotSet.findsInside
    (Inspection.findsInside_ofTrees _ _) (Inspection.findsInside_ofTrees _ _)
    (Inspection.findsInside_ofTrees _ _) VariableNotUsed.findsInside config

/-! ## Passes of the built-in rules -/

namespace Runner

variable {config : Config} {snapshot : Snapshot}

/-- The set that a pass of the built-in rules comes to if nobody cancels it. -/
def builtInSet (config : Config) (snapshot : Snapshot) : ResultSet :=
  .ofOutcomes ⟨snapshot, config.overrides⟩ (ofCatalog .builtIn config).rules

/-- A pass of the built-in rules that nobody cancels comes to a result set. -/
theorem runPass_builtIn (config : Config) (snapshot : Snapshot) :
    ((ofCatalog .builtIn config).runPass snapshot .clear).1 = .ok (builtInSet config snapshot) :=
  runPassIn_of_endsWell (forall_mem_ofCatalog (Catalog.endsWell_builtIn config)) [] snapshot

@[simp]
theorem snapshotVersion_builtInSet (config : Config) (snapshot : Snapshot) :
    (builtInSet config snapshot).snapshotVersion = snapshot.version := rfl

/-- What is found in two snapshots agrees in some respect if it does so rule by rule. -/
theorem map_findings_builtInSet {α : Type} {f : Finding → α} {other : Snapshot}
    (h : ∀ rule ∈ (ofCatalog .builtIn config).rules,
      (rule.outcome ⟨snapshot, config.overrides⟩).findings.map f =
        (rule.outcome ⟨other, config.overrides⟩).findings.map f) :
    (builtInSet config snapshot).findings.map f = (builtInSet config other).findings.map f := by
  rw [builtInSet, builtInSet, ResultSet.ofOutcomes, ResultSet.ofOutcomes, List.map_flatMap,
    List.map_flatMap]
  exact List.flatMap_congr h

/-- Every finding of the built-in rules lies in the snapshot. -/
theorem liesIn_builtInSet {finding : Finding}
    (h : finding ∈ (builtInSet config snapshot).findings) : finding.LiesIn snapshot := by
  obtain ⟨rule, hrule, hfinding⟩ := List.mem_flatMap.1 h
  obtain ⟨findings, houtcome, hfound⟩ := RunOutcome.exists_eq_found hfinding
  have hinside := forall_mem_ofCatalog (Catalog.findsInside_builtIn config) rule hrule
  exact hinside _ _ findings houtcome finding hfound

end Runner

/-! ## Modules without `Option Explicit` -/

namespace Collector

theorem contexts_foldl_push {module : ModuleName} (collector : Collector)
    (h : collector.stage = .collecting module) (nodes : List Nat) :
    (nodes.foldl push collector).contexts.toList =
      collector.contexts.toList ++ nodes.map (⟨module, ·⟩) := by
  induction nodes generalizing collector with
  | nil => simp
  | cons node rest ih =>
    have hpush : collector.push node =
        { collector with contexts := collector.contexts.push ⟨module, node⟩ } := by
      unfold push
      rw [h]
    have hrest := ih (collector.push node) (by rw [hpush]; exact h)
    rw [List.foldl_cons, hrest, hpush]
    simp

/-- A collector that nobody cancels records what is picked from each module, in order. -/
theorem contexts_collectModules_clear (visit : SyntaxTree → List Nat) (collector : Collector)
    (modules : List ModuleSource) :
    (collector.collectModules visit .clear modules).2.1.contexts.toList =
      collector.contexts.toList ++ modules.flatMap fun module ↦
        (visit module.parsed.tree).map (⟨module.name, ·⟩) := by
  induction modules generalizing collector with
  | nil => simp [collectModules]
  | cons module rest ih =>
    have hpushed := contexts_foldl_push (collector.beginModule module.name) rfl
      (visit module.parsed.tree)
    rw [collectModules]
    refine (ih _).trans ?_
    rw [endModule, hpushed, List.flatMap_cons, List.append_assoc]
    rfl

end Collector

/-- What a rule that looks at trees finds in a pass that nobody cancels. -/
theorem Inspection.outcome_ofTrees {info : RuleInfo} (select : SyntaxTree → List Nat)
    (message : ModuleName → String) (context : PassContext) (state : Collector) :
    RuleInstance.outcome context ⟨ofTrees info select message, state⟩ =
      .found
        (((context.snapshot.modules.flatMap fun module ↦
            (select module.parsed.tree).map (⟨module.name, ·⟩)).filter fun place : Context ↦
              !context.snapshot.isIgnoring place.module place.node info.name).filterMap
          fun place ↦ context.contextFinding? info place (message place.module)) := by
  have hcontexts := Collector.contexts_collectModules_clear select .empty context.snapshot.modules
  obtain ⟨collector, hcollect⟩ :=
    Collector.collectModules_clear select .empty context.snapshot.modules
  have hrun : Collector.empty.collect select .clear context.snapshot = (none, collector, .clear) :=
    hcollect
  have hplaces : collector.contexts.toList = context.snapshot.modules.flatMap fun module ↦
      (select module.parsed.tree).map (⟨module.name, ·⟩) := by
    rw [hcollect] at hcontexts
    simpa [Collector.empty] using hcontexts
  change ((ofTrees info select message).run context ⟨.empty, .clear⟩).1 = _
  simp only [ofTrees, hrun]
  rw [← hplaces]

/-- What a rule that looks at declarations finds in a pass that nobody cancels. -/
theorem Inspection.outcome_ofDeclarations {info : RuleInfo} (candidates : Snapshot → List Declaration)
    (find : PassContext → Declaration → List Finding) (context : PassContext) (state : Collector) :
    RuleInstance.outcome context ⟨ofDeclarations info candidates find, state⟩ =
      .found ((candidates context.snapshot).flatMap (find context)) := by
  simp only [RuleInstance.outcome, ofDeclarations, searchDeclarations_clear]

theorem Catalog.optionExplicit_mem_builtIn :
    OptionExplicit.inspection ∈ builtIn.instantiateEnabled .default := by
  have hnames : (builtIn.instantiateEnabled .default).map (·.info.name) =
      ["ObjectVariableNotSet", "ObsoleteLetStatement", "OptionBase", "OptionExplicit",
        "VariableNotUsed"] := by decide +kernel
  have hname : "OptionExplicit" ∈ (builtIn.instantiateEnabled .default).map (·.info.name) := by
    rw [hnames]
    decide
  obtain ⟨rule, hrule, hinfo⟩ := List.mem_map.1 hname
  have heq : rule.info.name = "OptionExplicit" → rule = OptionExplicit.inspection :=
    forall_mem_instantiateEnabled_builtIn
      (P := fun rule ↦ rule.info.name = "OptionExplicit" → rule = OptionExplicit.inspection)
      (fun _ h ↦ absurd (show "ObjectVariableNotSet" = "OptionExplicit" from h) (by decide))
      (fun h ↦ absurd h (by decide))
      (fun h ↦ absurd h (by decide)) (fun _ ↦ rfl) (fun h ↦ absurd h (by decide)) .default rule hrule
  rw [← heq hinfo]
  exact hrule

/-- No rule is silenced in a module without annotations. -/
theorem Snapshot.not_isIgnoring_of_no_annotations {snapshot : Snapshot} {name : ModuleName}
    {source : ModuleSource} (hsource : snapshot.module? name = some source)
    (hannotations : source.parsed.annotations = []) (node : Nat) (rule : String) :
    snapshot.isIgnoring name node rule = false := by
  have hnodes (nodes : List Nat) : (nodes.find? fun id ↦
      source.parsed.annotations.any (·.silencesNode id rule)) = none := by
    simp [hannotations]
  have hmodule : source.parsed.annotations.any (·.silencesModule rule) = false := by
    simp [hannotations]
  rw [← Bool.not_eq_true]
  intro hignoring
  obtain ⟨scope, hscope⟩ := Option.isSome_iff_exists.1 hignoring
  obtain ⟨known, hknown, hguarded⟩ := Option.bind_eq_some_iff.1 hscope
  cases hsource.symm.trans hknown
  obtain ⟨_, -, hsilenced⟩ := Option.bind_eq_some_iff.1 hguarded
  rw [hnodes, hmodule] at hsilenced
  cases hsilenced

/-- A module without annotations is found if a walk through its tree reports a node of it. -/
theorem Runner.exists_finding_of_select {snapshot : Snapshot} {source : ModuleSource}
    (hsource : snapshot.module? source.name = some source)
    (hannotations : source.parsed.annotations = []) {node : Nat}
    (hselect : node ∈ OptionExplicit.select source.parsed.tree)
    (hnode : node < source.parsed.tree.size) :
    ∃ finding ∈ (builtInSet .default snapshot).findings, finding.module = source.name := by
  let context : PassContext := ⟨snapshot, Config.default.overrides⟩
  let place : Context := ⟨source.name, node⟩
  have hplace : place ∈ context.snapshot.modules.flatMap fun module ↦
      (OptionExplicit.select module.parsed.tree).map (⟨module.name, ·⟩) :=
    List.mem_flatMap.2 ⟨source, List.mem_of_find?_eq_some hsource, List.mem_map_of_mem hselect⟩
  have hheard : snapshot.isIgnoring place.module place.node OptionExplicit.info.name = false :=
    Snapshot.not_isIgnoring_of_no_annotations hsource hannotations node _
  obtain ⟨known, hknown⟩ : ∃ known, source.parsed.tree.node? node = some known :=
    ⟨_, Array.getElem?_eq_getElem hnode⟩
  have hplaced : snapshot.node? source.name node = some known := by
    simp [Snapshot.node?, Snapshot.tree?, hsource, hknown]
  let finding := context.finding OptionExplicit.info (.context source.name node known.selection)
    (OptionExplicit.message source.name)
  have hfinding : context.contextFinding? OptionExplicit.info place
      (OptionExplicit.message place.module) = some finding := by
    change (snapshot.node? source.name node).map _ = _
    rw [hplaced]
    rfl
  refine ⟨finding, List.mem_flatMap.2 ⟨.fresh OptionExplicit.inspection, ?_, ?_⟩, rfl⟩
  · exact List.mem_map_of_mem Catalog.optionExplicit_mem_builtIn
  · rw [RuleInstance.fresh, OptionExplicit.inspection, Inspection.outcome_ofTrees]
    refine List.mem_filterMap.2 ⟨place, List.mem_filter.2 ⟨hplace, ?_⟩, hfinding⟩
    rw [hheard, Bool.not_false]

theorem OptionExplicit.select_readModule_empty (component : String) :
    select (readModule component "").tree = [0] := by
  let tree := (readModule component "").tree
  have hdeclarations : tree.visitsFrom 1 =
      [.enter .moduleDeclarations 1, .leave .moduleDeclarations 1] := by
    rw [SyntaxTree.visitsFrom_of_kind (show _ = some NodeKind.moduleDeclarations from rfl)]
    rfl
  have hbody : tree.visitsFrom 2 = [.enter .moduleBody 2] := by
    rw [SyntaxTree.visitsFrom_of_kind (show _ = some NodeKind.moduleBody from rfl)]
    rfl
  have hroot : tree.visits = _ :=
    SyntaxTree.visitsFrom_of_kind (show _ = some NodeKind.module from rfl)
  have hchildren : tree.children 0 = [1, 2] := rfl
  rw [select, hroot, hchildren]
  simp only [List.flatMap_cons, List.flatMap_nil, hdeclarations, hbody]
  rfl

/-- Something is found in a module without text. -/
theorem Runner.exists_finding_of_empty {snapshot : Snapshot} {source : ModuleSource}
    (hsource : snapshot.module? source.name = some source) {component : String}
    (hparsed : source.parsed = readModule component "") :
    ∃ finding ∈ (builtInSet .default snapshot).findings, finding.module = source.name := by
  have hselect : 0 ∈ OptionExplicit.select source.parsed.tree := by
    rw [hparsed, OptionExplicit.select_readModule_empty]
    exact List.mem_singleton_self 0
  have hannotations : source.parsed.annotations = [] := by
    rw [hparsed]
    rfl
  exact exists_finding_of_select hsource hannotations hselect source.parsed.tree.size_pos

end VbaLint
