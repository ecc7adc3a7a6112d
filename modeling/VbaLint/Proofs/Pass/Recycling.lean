import VbaLint.Proofs.Pass.History
import VbaLint.Proofs.Pass.Offer
import VbaLint.Proofs.Pass.Execution
import VbaLint.Proofs.Rules.Filtering

/-!
# Runners that are used again

A pass leaves the rules of its runner in whatever state they ended, and a cancelled one leaves them
halfway. The next pass resets each of them first. If that always gives the state of a new instance, a
runner that was used comes to the same as a new one, also when an engine hands it on.
-/

namespace VbaLint

variable {σ : Type}

/-! ## Rules that forget -/

namespace Inspection

/-- However an instance of the rule was left, resetting makes it as good as new. -/
def Forgets (rule : Inspection σ) : Prop := ∀ state, rule.reset state = rule.initial

/-- A new instance of the rule finds something, or is cancelled. -/
def NeverFaults (rule : Inspection σ) : Prop :=
  ∀ context signal,
    (∃ findings, (rule.run context ⟨rule.initial, signal⟩).1 = .found findings) ∨
      (rule.run context ⟨rule.initial, signal⟩).1 = .failed .cancelled

end Inspection

theorem Collector.collectModules_ne_reused (visit : Tree.SyntaxTree → List Nat)
    (collector : Collector) (signal : Signal) (modules : List ModuleSource) :
    (collector.collectModules visit signal modules).1 ≠ some .reused := by
  induction modules generalizing collector signal with
  | nil => simp [collectModules]
  | cons module rest ih =>
    rw [collectModules]
    split
    · simp
    · exact ih _ signal.next

namespace Inspection

variable {info : RuleInfo}

theorem neverFaults_ofTrees (select : Tree.SyntaxTree → List Nat)
    (message : ModuleName → String) : (ofTrees info select message).NeverFaults := by
  intro context signal
  have hcollect : Collector.empty.collect select signal context.snapshot =
      Collector.empty.collectModules select signal context.snapshot.modules := rfl
  have hstop := Collector.collectModules_ne_reused select .empty signal context.snapshot.modules
  simp only [ofTrees, hcollect]
  cases hwhy : (Collector.empty.collectModules select signal context.snapshot.modules).1 with
  | none => exact .inl ⟨_, rfl⟩
  | some stop =>
    cases stop with
    | reused => exact (hstop hwhy).elim
    | cancelled => exact .inr rfl

theorem neverFaults_ofDeclarations (candidates : Snapshot → List Declaration)
    (find : PassContext → Declaration → List Finding) :
    (ofDeclarations info candidates find).NeverFaults := by
  intro context signal
  simp only [ofDeclarations]
  cases (searchDeclarations (find context) (candidates context.snapshot) signal).1 with
  | none => exact .inr rfl
  | some findings => exact .inl ⟨findings, rfl⟩

end Inspection

namespace Catalog

theorem forgets_builtIn (config : Config) :
    ∀ rule ∈ builtIn.instantiateEnabled config, rule.Forgets :=
  forall_mem_instantiateEnabled_builtIn (fun _ _ ↦ rfl) (fun _ ↦ rfl) (fun _ ↦ rfl) (fun _ ↦ rfl)
    (fun _ ↦ rfl) config

theorem initial_builtIn (config : Config) :
    ∀ rule ∈ builtIn.instantiateEnabled config, rule.initial = .empty :=
  forall_mem_instantiateEnabled_builtIn (P := fun rule ↦ rule.initial = .empty) (fun _ ↦ rfl) rfl
    rfl rfl rfl config

theorem neverFaults_builtIn (config : Config) :
    ∀ rule ∈ builtIn.instantiateEnabled config, rule.NeverFaults :=
  forall_mem_instantiateEnabled_builtIn (fun _ ↦ Inspection.neverFaults_ofDeclarations _ _)
    (Inspection.neverFaults_ofTrees _ _) (Inspection.neverFaults_ofTrees _ _)
    (Inspection.neverFaults_ofTrees _ _) (Inspection.neverFaults_ofDeclarations _ _) config

end Catalog

/-! ## Runners of the same rules -/

/-- The runners own instances of the same rules, perhaps in other states. -/
structure Runner.SameRules (runner other : Runner σ) : Prop where
  inspections_eq : runner.rules.map (·.inspection) = other.rules.map (·.inspection)
  severities_eq : runner.severities = other.severities

theorem Execution.map_inspection_step (context : PassContext) (execution : Execution σ)
    (place : Nat) :
    (execution.step context place).rules.map (·.inspection) =
      execution.rules.map (·.inspection) := by
  unfold Execution.step
  cases hrule : execution.rules[place]? with
  | none => rfl
  | some rule =>
    have hkept : (rule.run context execution.signal).2.1.inspection = rule.inspection := by
      unfold RuleInstance.run
      split <;> rfl
    have hplace : (execution.rules.map (·.inspection))[place]? = some rule.inspection := by
      rw [List.getElem?_map, hrule, Option.map_some]
    obtain ⟨hlt, heq⟩ := List.getElem?_eq_some_iff.1 hplace
    dsimp only
    rw [List.map_set, hkept, ← heq]
    exact List.set_getElem_self hlt

theorem Execution.map_inspection_foldl (context : PassContext) (execution : Execution σ)
    (places : List Nat) :
    (places.foldl (Execution.step context) execution).rules.map (·.inspection) =
      execution.rules.map (·.inspection) := by
  induction places generalizing execution with
  | nil => rfl
  | cons place rest ih =>
    rw [List.foldl_cons, ih, execution.map_inspection_step]

namespace Runner

theorem SameRules.refl (runner : Runner σ) : runner.SameRules runner := ⟨rfl, rfl⟩

section SameRules

variable {runner other : Runner σ} (h : runner.SameRules other)
include h

/-- What holds of all rules of a runner holds of another one of the same rules. -/
theorem SameRules.forall_mem {P : Inspection σ → Prop}
    (hall : ∀ rule ∈ other.rules, P rule.inspection) : ∀ rule ∈ runner.rules, P rule.inspection := by
  intro rule hrule
  have hmem : rule.inspection ∈ other.rules.map (·.inspection) := by
    rw [← h.inspections_eq]
    exact List.mem_map_of_mem hrule
  obtain ⟨same, hsame, heq⟩ := List.mem_map.1 hmem
  exact heq ▸ hall same hsame

theorem SameRules.length_eq : runner.rules.length = other.rules.length := by
  simpa using congrArg List.length h.inspections_eq

/-- A pass leaves a runner of the same rules. -/
theorem SameRules.runPassIn (order : List Nat) (snapshot : Snapshot) (signal : Signal) :
    (runner.runPassIn order snapshot signal).2.1.SameRules other := by
  cases hset : signal.isCancelled with
  | true =>
    rw [runPassIn_of_isCancelled hset]
    exact h
  | false =>
    rw [runPassIn_of_clear hset, close_runner]
    refine ⟨?_, h.severities_eq⟩
    rw [execution, executionOf, Execution.map_inspection_foldl, List.map_map]
    exact h.inspections_eq

end SameRules

theorem map_reset_of_forgets {rules : List (RuleInstance σ)}
    (h : ∀ rule ∈ rules, rule.inspection.Forgets) :
    rules.map (·.reset) = (rules.map (·.inspection)).map .fresh := by
  rw [List.map_map]
  apply List.map_congr_left
  intro rule hrule
  exact congrArg (RuleInstance.mk rule.inspection) (h rule hrule rule.state)

/-- Resetting is all that the next pass depends on. -/
theorem SameRules.executionOf_eq {runner other : Runner σ} (h : runner.SameRules other)
    (hforgets : ∀ rule ∈ other.rules, rule.inspection.Forgets) (places : List Nat)
    (snapshot : Snapshot) (signal : Signal) :
    runner.executionOf places snapshot signal = other.executionOf places snapshot signal := by
  have hrules : runner.rules.map (·.reset) = other.rules.map (·.reset) := by
    rw [map_reset_of_forgets (h.forall_mem hforgets), map_reset_of_forgets hforgets,
      h.inspections_eq]
  have hcontributions : (runner.rules.map fun _ ↦ Contribution.cancelled) =
      other.rules.map fun _ ↦ .cancelled := by
    rw [List.map_const', List.map_const', h.length_eq]
  rw [executionOf, executionOf, hrules, hcontributions, h.severities_eq]

theorem SameRules.execution_eq {runner other : Runner σ} (h : runner.SameRules other)
    (hforgets : ∀ rule ∈ other.rules, rule.inspection.Forgets) (order : List Nat)
    (snapshot : Snapshot) (signal : Signal) :
    runner.execution order snapshot signal = other.execution order snapshot signal := by
  rw [execution, execution, h.length_eq, h.executionOf_eq hforgets]

end Runner

/-! ## Rules that begin as new -/

theorem RuleInstance.run_reset_ne_fault {rule : RuleInstance σ} (hforgets : rule.inspection.Forgets)
    (hfaults : rule.inspection.NeverFaults) (context : PassContext) (signal : Signal)
    (fault : Fault) : (rule.reset.run context signal).1 ≠ .fault fault := by
  have hstate : rule.reset.state = rule.inspection.initial := hforgets rule.state
  rw [RuleInstance.run, hstate]
  split
  · simp
  · rcases hfaults context signal.next with ⟨findings, hfound⟩ | hcancelled
    · change Contribution.ofOutcome _ (rule.inspection.run _ _).1 ≠ _
      rw [hfound]
      simp [Contribution.ofOutcome]
    · change Contribution.ofOutcome _ (rule.inspection.run _ _).1 ≠ _
      rw [hcancelled]
      simp [Contribution.ofOutcome]

theorem Execution.fault_not_mem_foldl {context : PassContext} {rules : List (RuleInstance σ)}
    (hforgets : ∀ rule ∈ rules, rule.inspection.Forgets)
    (hfaults : ∀ rule ∈ rules, rule.inspection.NeverFaults) (fault : Fault)
    {execution : Execution σ} {places : List Nat} (hnodup : places.Nodup)
    (hwaiting : ∀ place ∈ places, execution.rules[place]? = rules[place]?.map (·.reset))
    (hnone : .fault fault ∉ execution.contributions) :
    .fault fault ∉ (places.foldl (Execution.step context) execution).contributions := by
  induction places generalizing execution with
  | nil => exact hnone
  | cons place rest ih =>
    obtain ⟨hplace, hrest⟩ := List.nodup_cons.1 hnodup
    refine ih hrest ?_ ?_
    · intro other hother
      have hne : place ≠ other := fun heq ↦ hplace (heq ▸ hother)
      rw [Execution.getElem?_step_of_ne hne]
      exact hwaiting other (List.mem_cons_of_mem place hother)
    · rw [Execution.step, hwaiting place List.mem_cons_self]
      cases hrule : rules[place]? with
      | none => exact hnone
      | some rule =>
        have hmem : rule ∈ rules := List.mem_of_getElem? hrule
        intro hfault
        rcases List.mem_or_eq_of_mem_set hfault with h | h
        · exact hnone h
        · exact RuleInstance.run_reset_ne_fault (hforgets rule hmem) (hfaults rule hmem) context
            execution.signal fault h.symm

namespace Runner

/-- No pass of the runner can be told from a pass of the new one. -/
structure ActsAsNew (runner new : Runner Collector) : Prop where
  outcome_eq (order : List Nat) (snapshot : Snapshot) (signal : Signal) :
    (runner.runPassIn order snapshot signal).1 = (new.runPassIn order snapshot signal).1
  /-- Whenever the turn of a rule comes its collector lets a pass begin. -/
  begins {order places rest : List Nat} {place : Nat} {rule : RuleInstance Collector}
    (snapshot : Snapshot) (signal : Signal) :
    schedule order runner.rules.length = places ++ place :: rest →
      (runner.executionOf places snapshot signal).rules[place]? = some rule →
        rule.state.beginPass?.isSome = true
  faultless (order : List Nat) (snapshot : Snapshot) (signal : Signal) (fault : Fault) :
    .fault fault ∉ (runner.execution order snapshot signal).contributions

/-- A runner of the built-in rules acts as a new one, whatever it has done before. -/
theorem SameRules.actsAsNew {runner : Runner Collector} {config : Config}
    (h : runner.SameRules (.ofCatalog .builtIn config)) :
    runner.ActsAsNew (.ofCatalog .builtIn config) := by
  have hforgets := forall_mem_ofCatalog (Catalog.forgets_builtIn config)
  have hinitial := h.forall_mem (forall_mem_ofCatalog (Catalog.initial_builtIn config))
  have hfaults := h.forall_mem (forall_mem_ofCatalog (Catalog.neverFaults_builtIn config))
  constructor
  · intro order snapshot signal
    cases hset : signal.isCancelled with
    | true => rw [runPassIn_of_isCancelled hset, runPassIn_of_isCancelled hset]
    | false =>
      rw [runPassIn_of_clear hset, runPassIn_of_clear hset, close_outcome, close_outcome,
        h.execution_eq hforgets]
  · intro order places rest place rule snapshot signal hschedule hrule
    have hnodup := nodup_schedule order runner.rules.length
    rw [hschedule] at hnodup
    have hplace : place ∉ places := by
      intro hmem
      exact (List.nodup_append.1 hnodup).2.2 place hmem place List.mem_cons_self rfl
    rw [runner.getElem?_executionOf hplace] at hrule
    obtain ⟨waiting, hwaiting, rfl⟩ := Option.map_eq_some_iff.1 hrule
    have hmem := List.mem_of_getElem? hwaiting
    have hempty : waiting.reset.state = .empty :=
      (h.forall_mem hforgets waiting hmem waiting.state).trans (hinitial waiting hmem)
    rw [hempty]
    rfl
  · intro order snapshot signal fault
    refine Execution.fault_not_mem_foldl (h.forall_mem hforgets) hfaults fault
      (nodup_schedule order runner.rules.length) ?_ ?_
    · intro place _
      exact List.getElem?_map
    · simp

end Runner

/-! ## Runners that an engine hands on -/

def PassStage.runner? : PassStage σ → Option (Runner σ)
  | .pending pass => some pass.runner
  | .completed pass => some pass.runner
  | .done => none

/-- The engine makes its runners from the catalog and the configuration, and keeps no others. -/
structure Engine.KeepsRules (engine : Engine σ) (catalog : Catalog σ) (config : Config) : Prop where
  catalog_eq : engine.catalog = catalog
  config_eq : engine.config = config
  idle : ∀ runner ∈ engine.idle, runner.SameRules (.ofCatalog catalog config)

namespace Engine

variable {catalog : Catalog σ} {config : Config}

/-- A new engine keeps its rules. -/
theorem keepsRules_new (catalog : Catalog σ) (config : Config) :
    (Engine.new catalog config).KeepsRules catalog config :=
  ⟨rfl, rfl, fun _ h ↦ by cases h⟩

variable {engine : Engine σ} (h : engine.KeepsRules catalog config)
include h

theorem KeepsRules.cancel (token : Nat) : (engine.cancel token).KeepsRules catalog config :=
  ⟨h.catalog_eq, h.config_eq, h.idle⟩

theorem KeepsRules.replaceInflight : engine.replaceInflight.KeepsRules catalog config := by
  unfold Engine.replaceInflight
  cases engine.inflight <;> exact ⟨h.catalog_eq, h.config_eq, h.idle⟩

/-- The runner that is taken out has the rules of the engine. -/
theorem KeepsRules.checkoutRunner :
    engine.checkoutRunner.1.SameRules (.ofCatalog catalog config) ∧
      engine.checkoutRunner.2.KeepsRules catalog config := by
  unfold Engine.checkoutRunner
  split
  · next runner rest hidle =>
    have hall := h.idle
    rw [hidle] at hall
    obtain ⟨hrunner, hrest⟩ := List.forall_mem_cons.1 hall
    exact ⟨hrunner, h.catalog_eq, h.config_eq, hrest⟩
  · rw [h.catalog_eq, h.config_eq]
    exact ⟨.refl _, h⟩

/-- A pass begins with a runner of the rules of the engine. -/
theorem KeepsRules.begin (snapshot : Snapshot) :
    (engine.begin snapshot).1.runner.SameRules (.ofCatalog catalog config) ∧
      (engine.begin snapshot).2.KeepsRules catalog config :=
  h.replaceInflight.checkoutRunner

/-- A pass that has run gives back a runner of the same rules. -/
theorem KeepsRules.runIn (order : List Nat) (remaining : Option Nat) {pass : PendingPass σ}
    (hpass : pass.runner.SameRules (.ofCatalog catalog config)) :
    (engine.runIn order remaining pass).1.runner.SameRules (.ofCatalog catalog config) ∧
      (engine.runIn order remaining pass).2.KeepsRules catalog config := by
  refine ⟨hpass.runPassIn order pass.snapshot _, ?_⟩
  unfold Engine.runIn
  dsimp only
  split
  · exact h.cancel pass.token
  · exact h

theorem KeepsRules.publish (set : ResultSet) :
    (engine.publish set).2.KeepsRules catalog config :=
  ⟨h.catalog_eq, h.config_eq, h.idle⟩

theorem KeepsRules.complete {pass : CompletedPass σ}
    (hpass : pass.runner.SameRules (.ofCatalog catalog config)) :
    (engine.complete pass).2.KeepsRules catalog config := by
  have hidle : ∀ runner ∈ pass.runner :: engine.idle,
      runner.SameRules (.ofCatalog catalog config) := List.forall_mem_cons.2 ⟨hpass, h.idle⟩
  unfold Engine.complete
  cases pass.outcome with
  | ok set => exact ⟨h.catalog_eq, h.config_eq, hidle⟩
  | error failure => cases failure <;> exact ⟨h.catalog_eq, h.config_eq, hidle⟩

/-- A whole pass keeps the rules of the engine. -/
theorem KeepsRules.runAll (snapshot : Snapshot) :
    (engine.runAll snapshot).2.KeepsRules catalog config := by
  obtain ⟨hrunner, hbegun⟩ := h.begin snapshot
  obtain ⟨hcompleted, hran⟩ := hbegun.runIn [] none hrunner
  rw [runAll_snd]
  exact hran.complete hcompleted

end Engine

/-- The token of a pass that has just begun is not cancelled. -/
theorem Engine.signal_begin (engine : Engine σ) (snapshot : Snapshot) (remaining : Option Nat) :
    (engine.begin snapshot).2.signal (engine.begin snapshot).1.token remaining = ⟨remaining⟩ := by
  have htokens : (engine.begin snapshot).2.tokens = engine.replaceInflight.tokens := by
    unfold Engine.begin checkoutRunner
    dsimp only
    split <;> rfl
  have hpushed : ∃ earlier : Array Bool,
      engine.replaceInflight.tokens = earlier.push false ∧ earlier.size = engine.tokens.size := by
    unfold replaceInflight
    cases engine.inflight with
    | none => exact ⟨_, rfl, rfl⟩
    | some token => exact ⟨_, rfl, Array.size_setIfInBounds⟩
  obtain ⟨earlier, hearlier, hsize⟩ := hpushed
  have htoken : (engine.begin snapshot).1.token = earlier.size := hsize.symm
  rw [Engine.signal, isCancelled, htokens, hearlier, htoken, Array.getD_eq_getD_getElem?,
    Array.getElem?_push_size]
  rfl

/-- The engine keeps the rules, and so does every pass that is not over. -/
structure Session.KeepsRules (session : Session σ) (catalog : Catalog σ) (config : Config) :
    Prop where
  engine : session.engine.KeepsRules catalog config
  passes {pass : Nat} {stage : PassStage σ} {runner : Runner σ} :
    session.stage? pass = some stage → stage.runner? = some runner →
      runner.SameRules (.ofCatalog catalog config)

namespace Session

variable {catalog : Catalog σ} {config : Config}

theorem keepsRules_new (catalog : Catalog σ) (config : Config) :
    (Session.new (.new catalog config)).KeepsRules catalog config := by
  refine ⟨Engine.keepsRules_new catalog config, ?_⟩
  intro pass stage runner hstage
  simp [stage?, Session.new] at hstage

variable {session : Session σ} (h : session.KeepsRules catalog config)
include h

theorem KeepsRules.withEngine {engine : Engine σ} (hengine : engine.KeepsRules catalog config) :
    ({ session with engine } : Session σ).KeepsRules catalog config :=
  ⟨hengine, h.passes⟩

theorem KeepsRules.advance (pass : Nat) {stage : PassStage σ} {engine : Engine σ}
    (hengine : engine.KeepsRules catalog config)
    (hstage : ∀ runner, stage.runner? = some runner →
      runner.SameRules (.ofCatalog catalog config)) :
    (session.advance pass stage engine).KeepsRules catalog config := by
  refine ⟨hengine, ?_⟩
  intro other known runner hknown hrunner
  rw [stage?_advance] at hknown
  split at hknown
  · obtain ⟨old, -, rfl⟩ := Option.map_eq_some_iff.1 hknown
    exact hstage runner hrunner
  · exact h.passes hknown hrunner

theorem KeepsRules.begin (snapshot : Snapshot) :
    (session.step (.begin snapshot)).2.KeepsRules catalog config := by
  obtain ⟨hrunner, hengine⟩ := h.engine.begin snapshot
  refine ⟨hengine, ?_⟩
  intro pass stage runner hstage hstages
  simp only [step, stage?, Array.getElem?_push] at hstage
  split at hstage
  · cases hstage
    cases hstages
    exact hrunner
  · exact h.passes hstage hstages

theorem KeepsRules.run (pass : Nat) (order : List Nat) (remaining : Option Nat) :
    (session.run pass order remaining).2.KeepsRules catalog config := by
  unfold Session.run
  split
  · next pending hpending =>
    obtain ⟨hrunner, hengine⟩ := h.engine.runIn order remaining (h.passes hpending rfl)
    refine h.advance pass hengine ?_
    rintro _ ⟨⟩
    exact hrunner
  · exact h

theorem KeepsRules.complete (pass : Nat) :
    (session.complete pass).2.KeepsRules catalog config := by
  unfold Session.complete
  split
  · next completed hcompleted =>
    refine h.advance pass (h.engine.complete (h.passes hcompleted rfl)) ?_
    rintro _ ⟨⟩
  · exact h

/-- Every step keeps the rules of the engine. -/
theorem KeepsRules.step (step : SessionStep) : (session.step step).2.KeepsRules catalog config := by
  cases step with
  | begin snapshot => exact h.begin snapshot
  | run pass order remaining => exact h.run pass order remaining
  | complete pass => exact h.complete pass
  | cancel pass =>
    simp only [Session.step]
    split
    · exact h.withEngine (h.engine.cancel _)
    · exact h
  | runAll snapshot => exact h.withEngine (h.engine.runAll snapshot)
  | publish set => exact h.withEngine (h.engine.publish set)

/-- All steps keep the rules of the engine. -/
theorem KeepsRules.runSteps (steps : List SessionStep) :
    (session.runSteps steps).2.KeepsRules catalog config := by
  induction steps generalizing session with
  | nil => exact h
  | cons step rest ih => exact ih (h.step step)

end Session

/-! ## Passes after other passes -/

/-- What is asked of a runner: a pass over a snapshot, its rules in an order, with a signal. -/
structure PassRequest where
  order : List Nat
  snapshot : Snapshot
  signal : Signal

/-- The runner after some passes, one after another. -/
def Runner.afterPasses (runner : Runner σ) (history : List PassRequest) : Runner σ :=
  history.foldl (fun used pass ↦ (used.runPassIn pass.order pass.snapshot pass.signal).2.1) runner

theorem Runner.SameRules.afterPasses {runner other : Runner σ} (h : runner.SameRules other)
    (history : List PassRequest) : (runner.afterPasses history).SameRules other := by
  induction history generalizing runner with
  | nil => exact h
  | cons pass rest ih => exact ih (h.runPassIn pass.order pass.snapshot pass.signal)

/-- Passes of the built-in rules do not remember earlier ones. Whatever passes a runner has made, to
the end or cancelled halfway, its next pass is that of a new runner, and no collector refuses it. And
whatever was done in a session, every pass that waits there, or is begun next, comes to what a new
runner comes to on its snapshot and its signal. -/
theorem passes_do_not_remember (config : Config) :
    let new : Runner Collector := .ofCatalog .builtIn config
    (∀ history, (new.afterPasses history).ActsAsNew new) ∧
      ∀ steps,
        let session := ((Session.new (.builtIn config)).runSteps steps).2
        (∀ pass pending, session.stage? pass = some (.pending pending) →
          pending.runner.ActsAsNew new ∧
            ∀ order remaining, (session.engine.runIn order remaining pending).1.outcome =
              (new.runPassIn order pending.snapshot
                (session.engine.signal pending.token remaining)).1) ∧
        ∀ snapshot,
          let (pending, engine) := session.engine.begin snapshot
          pending.runner.ActsAsNew new ∧
            (∀ order remaining, (engine.runIn order remaining pending).1.outcome =
              (new.runPassIn order snapshot ⟨remaining⟩).1) ∧
            (session.engine.passOver snapshot).outcome = (new.runPass snapshot .clear).1 := by
  intro new
  refine ⟨fun history ↦ ((Runner.SameRules.refl new).afterPasses history).actsAsNew, ?_⟩
  intro steps session
  have hsession : session.KeepsRules .builtIn config :=
    (Session.keepsRules_new .builtIn config).runSteps steps
  refine ⟨?_, ?_⟩
  · intro pass pending hpending
    have hnew := (hsession.passes hpending rfl).actsAsNew
    exact ⟨hnew, fun order remaining ↦ hnew.outcome_eq order pending.snapshot _⟩
  · intro snapshot
    have hnew := (hsession.engine.begin snapshot).1.actsAsNew
    have houtcome (order : List Nat) (remaining : Option Nat) :
        ((session.engine.begin snapshot).2.runIn order remaining
            (session.engine.begin snapshot).1).1.outcome =
          (new.runPassIn order snapshot ⟨remaining⟩).1 := by
      have hrun := hnew.outcome_eq order snapshot
        ((session.engine.begin snapshot).2.signal (session.engine.begin snapshot).1.token remaining)
      rw [Engine.signal_begin] at hrun
      rw [← hrun, ← Engine.signal_begin session.engine snapshot]
      rfl
    exact ⟨hnew, houtcome, houtcome [] none⟩

end VbaLint
