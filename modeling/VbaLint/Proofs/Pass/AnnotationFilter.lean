import VbaLint.Proofs.Pass.Execution
import VbaLint.Proofs.Rules.Filtering

/-!
# Passes with and without annotations

A pass over a snapshot and one over the same snapshot without annotations go the same way, look by look
at the signal and rule by rule. They differ in the findings that annotations silence, and only there.
-/

namespace VbaLint

variable {σ : Type}

namespace Contribution

def keeping (p : Finding → Bool) : Contribution → Contribution
  | .findings reported => .findings (reported.filter p)
  | .fault reported => .fault reported
  | .cancelled => .cancelled

theorem ofOutcome_keeping (name : String) (p : Finding → Bool) (outcome : RunOutcome) :
    ofOutcome name (outcome.keeping p) = (ofOutcome name outcome).keeping p := by
  cases outcome with
  | found findings => rfl
  | panicked text => rfl
  | failed failure => cases failure <;> rfl

end Contribution

namespace ResultSet

/-- The result set with only those findings that satisfy `p`. -/
def keeping (p : Finding → Bool) (set : ResultSet) : ResultSet :=
  { set with findings := set.findings.filter p }

theorem add_keeping (p : Finding → Bool) (set : ResultSet) (contribution : Contribution) :
    (set.keeping p).add (contribution.keeping p) = (set.add contribution).map (·.keeping p) := by
  cases contribution with
  | findings findings =>
    simp only [add, keeping, Contribution.keeping, Option.map_some]
    rw [List.filter_append]
  | fault fault => rfl
  | cancelled => rfl

theorem ofContributions?_keeping (version : Nat) (p : Finding → Bool)
    (contributions : List Contribution) :
    ofContributions? version (contributions.map (·.keeping p)) =
      (ofContributions? version contributions).map (·.keeping p) := by
  induction contributions with
  | nil => rfl
  | cons contribution rest ih =>
    rw [List.map_cons, ofContributions?, ofContributions?, ih]
    cases ofContributions? version rest with
    | none => rfl
    | some set => exact add_keeping p set contribution

theorem byInspection_keeping_of_agree {p q : Finding → Bool} {rule : String}
    (h : ∀ finding : Finding, finding.inspection = rule → p finding = q finding)
    (set : ResultSet) :
    (set.keeping p).byInspection rule = (set.keeping q).byInspection rule := by
  simp only [byInspection, keeping, List.filter_filter]
  apply List.filter_congr
  intro finding _
  cases hrule : finding.inspection == rule with
  | false => rfl
  | true => rw [h finding (beq_iff_eq.1 hrule)]

end ResultSet

theorem RuleInstance.run_bare {rule : RuleInstance σ} (h : rule.inspection.FiltersOnly)
    (context : PassContext) (signal : Signal) :
    rule.run context signal =
      ((rule.run context.bare signal).1.keeping context.snapshot.reports,
        (rule.run context.bare signal).2) := by
  unfold RuleInstance.run
  split
  · rfl
  · have hrun := h context ⟨rule.state, signal.next⟩
    simp only [hrun, Contribution.ofOutcome_keeping]

namespace Execution

/-- The execution has gone as far as `bare`, over a snapshot without annotations, and in the same way;
it lacks those findings that fail `p`. -/
structure Mirrors (p : Finding → Bool) (execution bare : Execution σ) : Prop where
  rules_eq : execution.rules = bare.rules
  signal_eq : execution.signal = bare.signal
  contributions_eq : execution.contributions = bare.contributions.map (·.keeping p)
  filtersOnly : ∀ rule ∈ bare.rules, rule.inspection.FiltersOnly

variable {context : PassContext} {execution bare : Execution σ}

/-- The pass goes on mirroring the one without annotations when a rule is run. -/
theorem Mirrors.step (h : execution.Mirrors context.snapshot.reports bare) (place : Nat) :
    (execution.step context place).Mirrors context.snapshot.reports
      (bare.step context.bare place) := by
  unfold Execution.step
  rw [h.rules_eq]
  cases hrule : bare.rules[place]? with
  | none => exact h
  | some rule =>
    have hmem : rule ∈ bare.rules := List.mem_of_getElem? hrule
    have hrun := RuleInstance.run_bare (h.filtersOnly rule hmem) context bare.signal
    have hinspection (signal : Signal) :
        (rule.run context.bare signal).2.1.inspection = rule.inspection := by
      unfold RuleInstance.run
      split
      · rfl
      · rfl
    simp only [h.signal_eq, hrun]
    refine ⟨rfl, rfl, ?_, ?_⟩
    · rw [h.contributions_eq, List.map_set]
    · intro other hother
      rcases List.mem_or_eq_of_mem_set hother with hold | rfl
      · exact h.filtersOnly other hold
      · rw [hinspection]
        exact h.filtersOnly rule hmem

/-- The pass mirrors the one without annotations, whatever rules are run. -/
theorem Mirrors.foldl (h : execution.Mirrors context.snapshot.reports bare)
    (places : List Nat) :
    (places.foldl (Execution.step context) execution).Mirrors context.snapshot.reports
      (places.foldl (Execution.step context.bare) bare) := by
  induction places generalizing execution bare with
  | nil => exact h
  | cons place rest ih => exact ih (h.step place)

end Execution

/-- A pass is the pass without annotations, less the findings that are silenced; the runner and the
signal do not tell the two apart. -/
theorem Runner.runPassIn_bare {runner : Runner σ}
    (h : ∀ rule ∈ runner.rules, rule.inspection.FiltersOnly) (order : List Nat)
    (snapshot : Snapshot) (signal : Signal) :
    runner.runPassIn order snapshot signal =
      ((runner.runPassIn order snapshot.bare signal).1.map (·.keeping snapshot.reports),
        (runner.runPassIn order snapshot.bare signal).2) := by
  let context : PassContext := ⟨snapshot, runner.severities⟩
  let start : Execution σ :=
    ⟨runner.rules.map (·.reset), runner.rules.map fun _ ↦ .cancelled, signal.next⟩
  have hstart : start.Mirrors context.snapshot.reports start := by
    refine ⟨rfl, rfl, ?_, ?_⟩
    · simp [start, Contribution.keeping]
    · intro rule hrule
      obtain ⟨old, hold, rfl⟩ := List.mem_map.1 hrule
      exact h old hold
  have hfinished := hstart.foldl (schedule order runner.rules.length)
  unfold runPassIn
  split
  · rfl
  · simp only [context, start] at hfinished
    simp only [hfinished.rules_eq, hfinished.signal_eq, hfinished.contributions_eq,
      ResultSet.ofContributions?_keeping, Snapshot.version_keepingNotes]
    cases ResultSet.ofContributions? snapshot.version _ with
    | none => rfl
    | some set =>
      simp only [Option.map_some]
      split
      · rfl
      · rfl

/-- Rules that end well make a pass that ends well, with one result set whatever their order. -/
theorem Runner.runPassIn_of_endsWell {runner : Runner σ}
    (h : ∀ rule ∈ runner.rules, rule.inspection.EndsWell) (order : List Nat)
    (snapshot : Snapshot) :
    (runner.runPassIn order snapshot .clear).1 =
      .ok (.ofOutcomes ⟨snapshot, runner.severities⟩ runner.rules) := by
  have hrun (rule : RuleInstance σ) (hrule : rule ∈ runner.rules) :=
    h rule hrule ⟨snapshot, runner.severities⟩ rule.state
  apply runner.runPassIn_clear order snapshot
  · intro rule hrule
    obtain ⟨findings, after, hfound⟩ := hrun rule hrule
    exact congrArg (·.2.signal) hfound
  · intro rule hrule hfailed
    obtain ⟨findings, after, hfound⟩ := hrun rule hrule
    have hsame : RunOutcome.found findings = .failed .cancelled :=
      (congrArg (·.1) hfound).symm.trans hfailed
    cases hsame

/-- The findings of a rule depend on those annotations alone that name it. -/
theorem Runner.byInspection_runPassIn_keepingNotes {runner : Runner σ}
    (h : ∀ rule ∈ runner.rules, rule.inspection.FiltersOnly) (rule : String) (order : List Nat)
    (snapshot : Snapshot) (signal : Signal) :
    (runner.runPassIn order snapshot signal).1.map (·.byInspection rule) =
      (runner.runPassIn order (snapshot.keepingNotes (·.names rule)) signal).1.map
        (·.byInspection rule) := by
  have hreports (finding : Finding) (hrule : finding.inspection = rule) :
      snapshot.reports finding = (snapshot.keepingNotes (·.names rule)).reports finding := by
    subst hrule
    rw [Snapshot.reports, Snapshot.reports,
      Snapshot.isIgnoring_keepingNotes fun _ hnames ↦ hnames]
  rw [Runner.runPassIn_bare h order snapshot signal,
    Runner.runPassIn_bare h order (snapshot.keepingNotes (·.names rule)) signal,
    Snapshot.bare_keepingNotes]
  cases (runner.runPassIn order snapshot.bare signal).1 with
  | error failure => rfl
  | ok set => exact congrArg Except.ok (set.byInspection_keeping_of_agree hreports)

/-- In every pass of the built-in rules annotations act as a filter. The result set over any modules is
the one over the same modules without annotations, in the same order and with the same faults, less
the findings that are silenced at their own node under their own name; a pass that nobody cancels does
have such a result set, the same in every order of the rules. And what a rule finds stays the same when
all annotations go that do not name it. -/
theorem annotations_only_filter (version : Nat) (project : String) (modules : List ModuleSource)
    (config : Config) :
    let annotated := Snapshot.ofModules version project modules
    let bare :=
      Snapshot.ofModules version project (modules.map (·.keepingNotes fun _ ↦ false))
    let runner := Runner.ofCatalog .builtIn config
    (∀ order signal,
      (runner.runPassIn order annotated signal).1 =
        (runner.runPassIn order bare signal).1.map fun set ↦
          { set with
            findings := set.findings.filter fun finding ↦
              !annotated.isIgnoring finding.module finding.target.node finding.inspection }) ∧
    (∃ set, ∀ order, (runner.runPassIn order bare .clear).1 = .ok set) ∧
    ∀ rule order signal,
      (runner.runPassIn order annotated signal).1.map (·.byInspection rule) =
        (runner.runPassIn order
          (.ofModules version project (modules.map (·.keepingNotes (·.names rule))))
          signal).1.map (·.byInspection rule) := by
  intro annotated bare runner
  have hfilters : ∀ rule ∈ runner.rules, rule.inspection.FiltersOnly :=
    Runner.forall_mem_ofCatalog (Catalog.filtersOnly_builtIn config)
  have hends : ∀ rule ∈ runner.rules, rule.inspection.EndsWell :=
    Runner.forall_mem_ofCatalog (Catalog.endsWell_builtIn config)
  have hbare : bare = annotated.bare :=
    Snapshot.ofModules_keepingNotes version project modules fun _ ↦ false
  refine ⟨?_, ?_, ?_⟩
  · intro order signal
    rw [hbare, Runner.runPassIn_bare hfilters order annotated signal]
    rfl
  · exact ⟨_, fun order ↦ Runner.runPassIn_of_endsWell hends order bare⟩
  · intro rule order signal
    rw [Snapshot.ofModules_keepingNotes]
    exact Runner.byInspection_runPassIn_keepingNotes hfilters rule order annotated signal

end VbaLint
