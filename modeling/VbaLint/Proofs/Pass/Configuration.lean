import VbaLint.Proofs.Rules.Locating

/-!
# What a configuration does to a pass

Disabling rules takes their findings out of the result of a pass, and a table of severities labels
findings. Neither changes anything else that a pass of the built-in rules comes to.
-/

namespace VbaLint

open Text Tree

/-! ## Disabled rules -/

namespace Config

theorem isEnabled_disable (config : Config) (name rule : String) :
    (config.disable name).isEnabled rule = (config.isEnabled rule && !sameName name rule) := by
  unfold disable
  split
  · simp [isEnabled, Bool.not_or]
  · next hdisabled =>
    -- The name is disabled already, in some case.
    obtain ⟨known, hknown, hsame⟩ : ∃ known ∈ config.disabled, sameName known name = true := by
      simpa [isEnabled] using hdisabled
    cases hname : sameName name rule with
    | false => simp
    | true =>
      have hrule : sameName known rule = true :=
        beq_iff_eq.2 ((beq_iff_eq.1 hsame).trans (beq_iff_eq.1 hname))
      have hany : (config.disabled.any fun other ↦ sameName other rule) = true :=
        List.any_eq_true.2 ⟨known, hknown, hrule⟩
      rw [isEnabled, hany]
      rfl

theorem isEnabled_foldl_disable (config : Config) (names : List String) (rule : String) :
    (names.foldl disable config).isEnabled rule =
      (config.isEnabled rule && !names.any (sameName · rule)) := by
  induction names generalizing config with
  | nil => simp
  | cons name rest ih =>
    rw [List.foldl_cons, ih, isEnabled_disable, List.any_cons, Bool.not_or, Bool.and_assoc]

/-- Disabling a rule changes nothing else of a configuration. -/
theorem exists_disable_eq (config : Config) (name : String) :
    ∃ disabled, config.disable name = { config with disabled } := by
  unfold disable
  split
  · exact ⟨_, rfl⟩
  · exact ⟨config.disabled, rfl⟩

theorem exists_foldl_disable_eq (config : Config) (names : List String) :
    ∃ disabled, names.foldl disable config = { config with disabled } := by
  induction names generalizing config with
  | nil => exact ⟨config.disabled, rfl⟩
  | cons name rest ih =>
    obtain ⟨first, hfirst⟩ := config.exists_disable_eq name
    obtain ⟨disabled, hrest⟩ := ih (config.disable name)
    exact ⟨disabled, by rw [List.foldl_cons, hrest, hfirst]⟩

end Config

namespace Catalog

/-- The rules of the built-in catalog are listed under their own names, and of a configuration they
read the settings of rules alone. -/
theorem factory_builtIn {entry : String × RuleFactory Collector}
    (h : entry ∈ builtIn.factories.entries) (config : Config) :
    (entry.2 config).info.name = entry.1 ∧
      ∀ other : Config, other.inspections = config.inspections →
        entry.2 other = entry.2 config := by
  have hlisted := NameTable.mem_ofList h
  simp only [List.mem_cons, List.not_mem_nil, or_false] at hlisted
  rcases hlisted with rfl | rfl | rfl | rfl | rfl
  · refine ⟨rfl, fun other hother ↦ ?_⟩
    simp only [Config.settingsFor, hother]
  all_goals exact ⟨rfl, fun _ _ ↦ rfl⟩

theorem instantiateEnabled_disabling (config : Config) (names : List String) :
    builtIn.instantiateEnabled (names.foldl Config.disable config) =
      (builtIn.instantiateEnabled config).filter fun rule ↦
        !names.any (sameName · rule.info.name) := by
  obtain ⟨disabled, hconfig⟩ := config.exists_foldl_disable_eq names
  have hsettings : (names.foldl Config.disable config).inspections = config.inspections := by
    rw [hconfig]
  unfold instantiateEnabled
  rw [List.filter_map, List.filter_filter]
  have hfilter : builtIn.factories.entries.filter
      (fun entry ↦ (names.foldl Config.disable config).isEnabled entry.1) =
      builtIn.factories.entries.filter fun entry ↦
        !names.any (sameName · (entry.2 config).info.name) && config.isEnabled entry.1 := by
    apply List.filter_congr
    intro entry hentry
    rw [Config.isEnabled_foldl_disable, (factory_builtIn hentry config).1, Bool.and_comm]
  rw [hfilter]
  apply List.map_congr_left
  intro entry hentry
  exact (factory_builtIn (List.mem_filter.1 hentry).1 config).2 _ hsettings

/-- The severity that a built-in rule gives its findings if nothing else is configured. -/
def defaultSeverity (rule : String) : Severity :=
  (((builtIn.instantiate .default).find? (·.info.name == rule)).map
    (·.info.defaultSeverity)).getD .hint

end Catalog

/-! ## Labels -/

namespace Finding

def withSeverity (finding : Finding) (severity : Severity) : Finding := { finding with severity }

end Finding

namespace RunOutcome

def withSeverity (severity : Severity) : RunOutcome → RunOutcome
  | .found findings => .found (findings.map (·.withSeverity severity))
  | .failed failure => .failed failure
  | .panicked text => .panicked text

end RunOutcome

namespace PassContext

/-- The context of the same pass under another table of severities. -/
abbrev under (context : PassContext) (severities : Severities) : PassContext :=
  { context with severities }

variable {context : PassContext} {severities : Severities} {info : RuleInfo} {message : String}
  {finding : Finding}

theorem contextFinding?_under (place : Context) :
    (context.under severities).contextFinding? info place message =
      (context.contextFinding? info place message).map
        (·.withSeverity ((context.under severities).severityOf info)) := by
  unfold contextFinding?
  rw [Option.map_map]
  rfl

theorem referenceFinding?_under (reference : Reference) :
    (context.under severities).referenceFinding? info reference message =
      (context.referenceFinding? info reference message).map
        (·.withSeverity ((context.under severities).severityOf info)) := by
  unfold referenceFinding?
  split <;> rfl

theorem inspection_of_contextFinding? {place : Context}
    (h : context.contextFinding? info place message = some finding) :
    finding.inspection = info.name := by
  obtain ⟨node, -, rfl⟩ := Option.map_eq_some_iff.1 h
  rfl

theorem inspection_of_referenceFinding? {reference : Reference}
    (h : context.referenceFinding? info reference message = some finding) :
    finding.inspection = info.name := by
  obtain ⟨-, hfinding⟩ := Option.ite_none_right_eq_some.1 h
  cases hfinding
  rfl

end PassContext

namespace Inspection

variable {σ : Type} {info : RuleInfo}

/-- The rule puts its own name on what it finds, and does nothing with the configured severities but
put the one that is its own on it. -/
structure Labels (rule : Inspection σ) : Prop where
  names {context : PassContext} {bench : Bench σ} {findings : List Finding}
    (h : (rule.run context bench).1 = .found findings) {finding : Finding}
    (hfinding : finding ∈ findings) : finding.inspection = rule.info.name
  severities (context : PassContext) (severities : Severities) (bench : Bench σ) :
    rule.run (context.under severities) bench =
      ((rule.run context bench).1.withSeverity ((context.under severities).severityOf rule.info),
        (rule.run context bench).2)

theorem labels_ofTrees (select : SyntaxTree → List Nat) (message : ModuleName → String) :
    (ofTrees info select message).Labels := by
  constructor
  · intro context bench findings hfound finding hfinding
    simp only [ofTrees] at hfound
    cases hstop : (bench.state.collect select bench.signal context.snapshot).1 with
    | some reason =>
      rw [hstop] at hfound
      cases reason <;> cases hfound
    | none =>
      rw [hstop] at hfound
      cases hfound
      obtain ⟨place, -, hplace⟩ := List.mem_filterMap.1 hfinding
      exact PassContext.inspection_of_contextFinding? hplace
  · intro context severities bench
    simp only [ofTrees]
    obtain ⟨stop, collector, signal⟩ := bench.state.collect select bench.signal context.snapshot
    cases stop with
    | some reason => cases reason <;> rfl
    | none => simp only [RunOutcome.withSeverity, PassContext.contextFinding?_under,
        List.map_filterMap]

/-- A search takes the same course whatever becomes of what it finds. -/
theorem searchDeclarations_map {find mapped : Declaration → List Finding}
    {change : Finding → Finding}
    (h : ∀ declaration, mapped declaration = (find declaration).map change)
    (declarations : List Declaration) (signal : Signal) :
    searchDeclarations mapped declarations signal =
      ((searchDeclarations find declarations signal).1.map (·.map change),
        (searchDeclarations find declarations signal).2) := by
  induction declarations generalizing signal with
  | nil => rfl
  | cons declaration rest ih =>
    rw [searchDeclarations, searchDeclarations]
    split
    · rfl
    · rw [ih, h]
      obtain ⟨found?, after⟩ := searchDeclarations find rest signal.next
      cases found? with
      | none => rfl
      | some found =>
        simp only [Option.map_some]
        rw [List.map_append]

theorem labels_ofDeclarations {candidates : Snapshot → List Declaration}
    {find : PassContext → Declaration → List Finding}
    (hnames : ∀ context declaration, ∀ finding ∈ find context declaration,
      finding.inspection = info.name)
    (hseverities : ∀ (context : PassContext) severities declaration,
      find (context.under severities) declaration =
        (find context declaration).map
          (·.withSeverity ((context.under severities).severityOf info))) :
    (ofDeclarations info candidates find).Labels := by
  constructor
  · intro context bench findings hfound finding hfinding
    simp only [ofDeclarations] at hfound
    cases hsearch :
        (searchDeclarations (find context) (candidates context.snapshot) bench.signal).1 with
    | none =>
      rw [hsearch] at hfound
      cases hfound
    | some found =>
      rw [hsearch] at hfound
      cases hfound
      obtain ⟨declaration, -, hmem⟩ := exists_of_mem_searchDeclarations hsearch hfinding
      exact hnames context declaration finding hmem
  · intro context severities bench
    simp only [ofDeclarations]
    rw [searchDeclarations_map (hseverities context severities)]
    cases (searchDeclarations (find context) (candidates context.snapshot) bench.signal).1 with
    | none => rfl
    | some found => rfl

end Inspection

theorem ObjectVariableNotSet.labels (settings : RuleSettings) : (inspection settings).Labels := by
  apply Inspection.labels_ofDeclarations
  · intro context declaration finding hfinding
    obtain ⟨reference, -, hreference⟩ := List.mem_filterMap.1 hfinding
    exact PassContext.inspection_of_referenceFinding? hreference
  · intro context severities declaration
    simp only [PassContext.referenceFinding?_under, List.map_filterMap]

theorem VariableNotUsed.labels : inspection.Labels := by
  apply Inspection.labels_ofDeclarations
  · intro context declaration finding hfinding
    unfold find at hfinding
    split at hfinding
    · cases hfinding
    · exact PassContext.inspection_of_contextFinding? (Option.mem_toList.1 hfinding)
  · intro context severities declaration
    unfold find
    split
    · rfl
    · rw [PassContext.contextFinding?_under, Option.toList_map]

theorem Catalog.labels_builtIn (config : Config) :
    ∀ rule ∈ builtIn.instantiateEnabled config, rule.Labels :=
  forall_mem_instantiateEnabled_builtIn ObjectVariableNotSet.labels (Inspection.labels_ofTrees _ _)
    (Inspection.labels_ofTrees _ _) (Inspection.labels_ofTrees _ _) VariableNotUsed.labels config

theorem Catalog.defaultSeverity_builtIn (config : Config) :
    ∀ rule ∈ builtIn.instantiateEnabled config,
      defaultSeverity rule.info.name = rule.info.defaultSeverity :=
  forall_mem_instantiateEnabled_builtIn
    (P := fun rule ↦ defaultSeverity rule.info.name = rule.info.defaultSeverity)
    (fun _ ↦ show defaultSeverity ObjectVariableNotSet.info.name =
      ObjectVariableNotSet.info.defaultSeverity by decide +kernel)
    (by decide +kernel) (by decide +kernel) (by decide +kernel) (by decide +kernel) config

/-! ## Passes -/

/-- The severity that a configuration gives to the findings of a built-in rule. -/
def Config.severityFor (config : Config) (rule : String) : Severity :=
  (config.overrides.find? (lowerAsciiString rule)).getD (Catalog.defaultSeverity rule)

/-- The result set without the findings of the rules that are named. -/
def ResultSet.without (set : ResultSet) (names : List String) : ResultSet :=
  { set with findings := set.findings.filter fun finding ↦ !names.any (sameName · finding.inspection) }

def ResultSet.labelledBy (set : ResultSet) (config : Config) : ResultSet :=
  { set with
    findings := set.findings.map fun finding ↦
      finding.withSeverity (config.severityFor finding.inspection) }

theorem ResultSet.retainAtLeast_without (set : ResultSet) (names : List String)
    (minimum : Severity) :
    (set.without names).retainAtLeast minimum = (set.retainAtLeast minimum).without names := by
  simp only [retainAtLeast, without, List.filter_filter, Bool.and_comm]

namespace RuleInstance

variable {σ : Type} {rule : RuleInstance σ}

theorem inspection_of_mem_findings (h : rule.inspection.Labels) {context : PassContext}
    {finding : Finding} (hfinding : finding ∈ (rule.outcome context).findings) :
    finding.inspection = rule.name := by
  obtain ⟨findings, houtcome, hfound⟩ := RunOutcome.exists_eq_found hfinding
  exact h.names houtcome hfound

/-- A test of names takes all findings of a rule or none. -/
theorem filter_findings_outcome (h : rule.inspection.Labels) (context : PassContext)
    (p : String → Bool) :
    (rule.outcome context).findings.filter (fun finding ↦ p finding.inspection) =
      if p rule.name then (rule.outcome context).findings else [] := by
  split
  · next hkept =>
    refine List.filter_eq_self.2 fun finding hfinding ↦ ?_
    rw [inspection_of_mem_findings h hfinding, hkept]
  · next hgone =>
    refine List.filter_eq_nil_iff.2 fun finding hfinding ↦ ?_
    rw [inspection_of_mem_findings h hfinding]
    exact hgone

/-- Under other severities a rule finds the same, with its other severity on it. -/
theorem findings_outcome_under (h : rule.inspection.Labels) (context : PassContext)
    (severities : Severities) :
    (rule.outcome (context.under severities)).findings =
      (rule.outcome context).findings.map
        (·.withSeverity ((context.under severities).severityOf rule.inspection.info)) := by
  have hrun := h.severities context severities ⟨rule.reset.state, .clear⟩
  have houtcome : rule.outcome (context.under severities) =
      (rule.outcome context).withSeverity
        ((context.under severities).severityOf rule.inspection.info) := congrArg (·.1) hrun
  rw [houtcome]
  cases rule.outcome context <;> rfl

end RuleInstance

namespace Runner

/-- The built-in rules find the same in any order. -/
theorem runPassIn_builtIn (config : Config) (order : List Nat) (snapshot : Snapshot) :
    ((ofCatalog .builtIn config).runPassIn order snapshot .clear).1 =
      .ok (builtInSet config snapshot) :=
  runPassIn_of_endsWell (forall_mem_ofCatalog (Catalog.endsWell_builtIn config)) order snapshot

/-- No built-in rule fails. -/
theorem faults_builtInSet (config : Config) (snapshot : Snapshot) :
    (builtInSet config snapshot).faults = [] := by
  refine List.filterMap_eq_nil_iff.2 fun rule hrule ↦ ?_
  obtain ⟨findings, after, hrun⟩ := forall_mem_ofCatalog (Catalog.endsWell_builtIn config) rule hrule
    ⟨snapshot, config.overrides⟩ rule.state
  have houtcome : rule.outcome ⟨snapshot, config.overrides⟩ = .found findings :=
    congrArg (·.1) hrun
  rw [houtcome]
  rfl

theorem rules_ofCatalog_disabling (config : Config) (names : List String) :
    (ofCatalog .builtIn (names.foldl Config.disable config)).rules =
      (ofCatalog .builtIn config).rules.filter fun rule ↦ !names.any (sameName · rule.name) := by
  unfold ofCatalog fresh
  rw [Catalog.instantiateEnabled_disabling, List.filter_map]
  rfl

theorem builtInSet_disabling (config : Config) (names : List String) (snapshot : Snapshot) :
    builtInSet (names.foldl Config.disable config) snapshot =
      (builtInSet config snapshot).without names := by
  have hseverities : (names.foldl Config.disable config).overrides = config.overrides := by
    obtain ⟨disabled, hconfig⟩ := config.exists_foldl_disable_eq names
    rw [hconfig]
    rfl
  have hfindings : (builtInSet (names.foldl Config.disable config) snapshot).findings =
      ((builtInSet config snapshot).without names).findings := by
    unfold builtInSet ResultSet.ofOutcomes ResultSet.without
    simp only [hseverities, rules_ofCatalog_disabling, List.filter_flatMap, flatMap_filter]
    apply List.flatMap_congr
    intro rule hrule
    exact (RuleInstance.filter_findings_outcome
      (forall_mem_ofCatalog (Catalog.labels_builtIn config) rule hrule) _
      fun name ↦ !names.any (sameName · name)).symm
  have hfaults : (builtInSet (names.foldl Config.disable config) snapshot).faults =
      ((builtInSet config snapshot).without names).faults :=
    (faults_builtInSet _ snapshot).trans (faults_builtInSet config snapshot).symm
  exact congrArg₂ (ResultSet.mk snapshot.version) hfindings hfaults

theorem rules_ofCatalog_withSeverity (config : Config) (severity : NameTable Severity) :
    (ofCatalog .builtIn { config with severity }).rules = (ofCatalog .builtIn config).rules := by
  apply congrArg (List.map RuleInstance.fresh)
  apply List.map_congr_left
  intro entry hentry
  exact (Catalog.factory_builtIn (List.mem_filter.1 hentry).1 config).2 _ rfl

theorem builtInSet_withSeverity (config : Config) (severity : NameTable Severity)
    (snapshot : Snapshot) :
    builtInSet { config with severity } snapshot =
      (builtInSet config snapshot).labelledBy { config with severity } := by
  let context : PassContext := ⟨snapshot, config.overrides⟩
  let relabelled : Config := { config with severity }
  have hfindings : (builtInSet relabelled snapshot).findings =
      ((builtInSet config snapshot).labelledBy relabelled).findings := by
    unfold builtInSet ResultSet.ofOutcomes ResultSet.labelledBy
    simp only [relabelled, rules_ofCatalog_withSeverity, List.map_flatMap]
    apply List.flatMap_congr
    intro rule hrule
    have hlabels := forall_mem_ofCatalog (Catalog.labels_builtIn config) rule hrule
    have hdefault := forall_mem_ofCatalog
      (P := fun rule ↦ Catalog.defaultSeverity rule.info.name = rule.info.defaultSeverity)
      (Catalog.defaultSeverity_builtIn config) rule hrule
    refine (RuleInstance.findings_outcome_under hlabels context relabelled.overrides).trans ?_
    apply List.map_congr_left
    intro finding hfinding
    rw [RuleInstance.inspection_of_mem_findings hlabels hfinding, Config.severityFor,
      RuleInstance.name, hdefault]
    rfl
  have hfaults : (builtInSet relabelled snapshot).faults =
      ((builtInSet config snapshot).labelledBy relabelled).faults :=
    (faults_builtInSet _ snapshot).trans (faults_builtInSet config snapshot).symm
  exact congrArg₂ (ResultSet.mk snapshot.version) hfindings hfaults

end Runner

/-- A configuration filters and labels, and does no more. Every pass of the built-in rules that nobody
cancels has a result set, the same in every order of the rules. Disabling further rules takes out the
findings under their names, in any ASCII case; the other findings, their order and the faults stay as
they are. Under another table of severities every finding stays at its place and differs in nothing
but its severity, which is the one that the table gives to its rule. And it is all one whether findings
below a minimum go before or after the rules are disabled. -/
theorem configuration_filters_and_labels (snapshot : Snapshot) (config : Config) :
    let pass (config : Config) (order : List Nat) :=
      ((Runner.ofCatalog .builtIn config).runPassIn order snapshot .clear).1
    ∃ set : ResultSet,
      (∀ order, pass config order = .ok set) ∧
      (∀ names order, pass (names.foldl Config.disable config) order = .ok (set.without names)) ∧
      (∀ severity order, pass { config with severity } order =
        .ok (set.labelledBy { config with severity })) ∧
      ∀ names minimum order,
        (pass (names.foldl Config.disable config) order).map (·.retainAtLeast minimum) =
          .ok ((set.retainAtLeast minimum).without names) := by
  intro pass
  refine ⟨Runner.builtInSet config snapshot, ?_, ?_, ?_, ?_⟩
  · intro order
    exact Runner.runPassIn_builtIn config order snapshot
  · intro names order
    rw [← Runner.builtInSet_disabling]
    exact Runner.runPassIn_builtIn _ order snapshot
  · intro severity order
    rw [← Runner.builtInSet_withSeverity]
    exact Runner.runPassIn_builtIn _ order snapshot
  · intro names minimum order
    rw [← ResultSet.retainAtLeast_without, ← Runner.builtInSet_disabling]
    exact congrArg (Except.map (·.retainAtLeast minimum)) (Runner.runPassIn_builtIn _ order snapshot)

end VbaLint
