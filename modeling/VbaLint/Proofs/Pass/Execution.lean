import VbaLint.Pass.Runner
import VbaLint.Proofs.ListLemmas

/-!
# How the rules of a pass run

Whatever order is asked for, a pass runs each of its rules once. While nobody cancels the pass a rule
comes to the same outcome in every order, and its contribution stands at its place in the list.
-/

namespace VbaLint

variable {σ : Type}

/-! ## The schedule -/

/-- The schedule runs every rule. -/
theorem mem_schedule {order : List Nat} {count place : Nat} :
    place ∈ schedule order count ↔ place < count := by
  simp only [schedule, List.mem_append, List.mem_eraseDups, List.mem_filter, List.mem_range,
    List.contains_eq_mem, decide_eq_true_eq, Bool.not_eq_true', decide_eq_false_iff_not]
  grind

/-- The schedule runs no rule twice. -/
theorem nodup_schedule (order : List Nat) (count : Nat) : (schedule order count).Nodup := by
  refine List.nodup_append.2 ⟨nodup_eraseDups _, List.nodup_range.filter _, ?_⟩
  intro named hnamed other hother heq
  subst heq
  have := (List.mem_filter.1 hother).2
  simp_all

/-! ## Rules that nobody cancels -/

namespace RuleInstance

/-- How the rule ends in a pass that nobody cancels. -/
def outcome (context : PassContext) (rule : RuleInstance σ) : RunOutcome :=
  (rule.inspection.run context ⟨rule.reset.state, .clear⟩).1

/-- The rule does not cancel a pass that nobody else cancels. -/
def KeepsClear (context : PassContext) (rule : RuleInstance σ) : Prop :=
  (rule.inspection.run context ⟨rule.reset.state, .clear⟩).2.signal = .clear

/-- A rule that was reset ends as a new one does. -/
theorem run_reset_clear (context : PassContext) (rule : RuleInstance σ) :
    (rule.reset.run context .clear).1 = .ofOutcome rule.name (rule.outcome context) := rfl

theorem KeepsClear.run {context : PassContext} {rule : RuleInstance σ}
    (h : rule.KeepsClear context) : (rule.reset.run context .clear).2.2 = .clear := h

end RuleInstance

namespace Execution

variable {context : PassContext} {rules : List (RuleInstance σ)}

/-- The rules at the places `done` have run, one after another on a clear signal; the others have
not been touched since they were reset. -/
structure Ran (context : PassContext) (rules : List (RuleInstance σ)) (done : List Nat)
    (execution : Execution σ) : Prop where
  signal_eq : execution.signal = .clear
  length_eq : execution.contributions.length = rules.length
  waiting {place : Nat} :
    place ∉ done → execution.rules[place]? = rules[place]?.map (·.reset)
  contributed {place : Nat} :
    place ∈ done → execution.contributions[place]? =
      rules[place]?.map fun rule ↦ .ofOutcome rule.name (rule.outcome context)

/-- A rule that is run contributes, and the others wait as before. -/
theorem Ran.step {done : List Nat} {execution : Execution σ}
    (h : execution.Ran context rules done) (hclear : ∀ rule ∈ rules, rule.KeepsClear context)
    {place : Nat} (hplace : place ∉ done) :
    (execution.step context place).Ran context rules (place :: done) := by
  have hwaiting := h.waiting hplace
  unfold Execution.step
  cases hrule : rules[place]? with
  | none =>
    rw [hrule, Option.map_none] at hwaiting
    rw [hwaiting]
    refine ⟨h.signal_eq, h.length_eq, ?_, ?_⟩
    · intro other hother
      exact h.waiting fun hdone ↦ hother (List.mem_cons_of_mem place hdone)
    · intro other hother
      rcases List.mem_cons.1 hother with rfl | hdone
      · have : rules.length ≤ other := List.getElem?_eq_none_iff.1 hrule
        rw [hrule, Option.map_none, List.getElem?_eq_none_iff, h.length_eq]
        exact this
      · exact h.contributed hdone
  | some rule =>
    rw [hrule, Option.map_some] at hwaiting
    rw [hwaiting, h.signal_eq]
    have hmem : rule ∈ rules := List.mem_of_getElem? hrule
    have hlt : place < execution.contributions.length := by
      rw [h.length_eq]
      exact (List.getElem?_eq_some_iff.1 hrule).1
    refine ⟨(hclear rule hmem).run, ?_, ?_, ?_⟩
    · rw [List.length_set, h.length_eq]
    · intro other hother
      have hne : place ≠ other := fun heq ↦ hother (heq ▸ List.mem_cons_self)
      rw [List.getElem?_set_ne hne]
      exact h.waiting fun hdone ↦ hother (List.mem_cons_of_mem place hdone)
    · intro other hother
      by_cases heq : place = other
      · subst heq
        rw [List.getElem?_set_self hlt, hrule, Option.map_some, rule.run_reset_clear]
      · rw [List.getElem?_set_ne heq]
        exact h.contributed ((List.mem_cons.1 hother).resolve_left (Ne.symm heq))

/-- Running the rules at some places, each once and in any order. -/
theorem Ran.foldl {done : List Nat} {execution : Execution σ}
    (h : execution.Ran context rules done) (hclear : ∀ rule ∈ rules, rule.KeepsClear context)
    {places : List Nat} (hnodup : places.Nodup) (hnew : ∀ place ∈ places, place ∉ done) :
    (places.foldl (Execution.step context) execution).Ran context rules
      (places.reverse ++ done) := by
  induction places generalizing done execution with
  | nil => exact h
  | cons place rest ih =>
    obtain ⟨hplace, hrest⟩ := List.nodup_cons.1 hnodup
    have hstep := h.step hclear (hnew place List.mem_cons_self)
    have hrun := ih hstep hrest ?_
    · rw [List.reverse_cons, List.append_assoc]
      exact hrun
    · intro other hother hdone
      rcases List.mem_cons.1 hdone with rfl | hdone
      · exact hplace hother
      · exact hnew other (List.mem_cons_of_mem place hother) hdone

end Execution

/-! ## The course of a pass -/

/-- Running one rule leaves the state of the others. -/
theorem Execution.getElem?_step_of_ne {place other : Nat} (h : place ≠ other)
    (context : PassContext) (execution : Execution σ) :
    (execution.step context place).rules[other]? = execution.rules[other]? := by
  unfold Execution.step
  split
  · rfl
  · exact List.getElem?_set_ne h

theorem Execution.getElem?_foldl_of_not_mem {places : List Nat} {place : Nat}
    (h : place ∉ places) (context : PassContext) (execution : Execution σ) :
    (places.foldl (Execution.step context) execution).rules[place]? = execution.rules[place]? := by
  induction places generalizing execution with
  | nil => rfl
  | cons first rest ih =>
    obtain ⟨hfirst, hrest⟩ := List.ne_and_not_mem_of_not_mem_cons h
    rw [List.foldl_cons, ih hrest, Execution.getElem?_step_of_ne hfirst.symm]

namespace Runner

/-- The pass when the rules at some places have run, one after another. -/
def executionOf (runner : Runner σ) (places : List Nat) (snapshot : Snapshot) (signal : Signal) :
    Execution σ :=
  places.foldl (Execution.step ⟨snapshot, runner.severities⟩)
    { rules := runner.rules.map (·.reset)
      contributions := runner.rules.map fun _ ↦ .cancelled
      signal := signal.next }

/-- The pass when all rules have run in the given order. -/
def execution (runner : Runner σ) (order : List Nat) (snapshot : Snapshot) (signal : Signal) :
    Execution σ :=
  runner.executionOf (schedule order runner.rules.length) snapshot signal

/-- What a pass comes to, by the contributions of its rules and the last look at the signal. -/
def verdict (version : Nat) (contributions : List Contribution) (signal : Signal) :
    Except Failure ResultSet :=
  match ResultSet.ofContributions? version contributions with
  | none => .error .cancelled
  | some set => if signal.isCancelled then .error .cancelled else .ok set

/-- A runner owns the rules that the configuration leaves enabled. -/
theorem forall_mem_ofCatalog {catalog : Catalog σ} {config : Config}
    {P : Inspection σ → Prop} (h : ∀ rule ∈ catalog.instantiateEnabled config, P rule) :
    ∀ rule ∈ (ofCatalog catalog config).rules, P rule.inspection := by
  intro rule hrule
  obtain ⟨inspection, hinspection, rfl⟩ := List.mem_map.1 hrule
  exact h inspection hinspection

variable {runner : Runner σ} {signal : Signal}

/-- A pass that is cancelled before it begins runs no rule. -/
theorem runPassIn_of_isCancelled (h : signal.isCancelled = true) (order : List Nat)
    (snapshot : Snapshot) :
    runner.runPassIn order snapshot signal = (.error .cancelled, runner, signal) := by
  rw [runPassIn, if_pos h]

/-- What is left of a pass when all rules have run. -/
def close (runner : Runner σ) (version : Nat) (finished : Execution σ) :
    Except Failure ResultSet × Runner σ × Signal :=
  match ResultSet.ofContributions? version finished.contributions with
  | none => (.error .cancelled, { runner with rules := finished.rules }, finished.signal)
  | some set =>
    if finished.signal.isCancelled then
      (.error .cancelled, { runner with rules := finished.rules }, finished.signal)
    else (.ok set, { runner with rules := finished.rules }, finished.signal.next)

/-- A pass that is not cancelled before it begins runs all rules, and then looks at the signal. -/
theorem runPassIn_of_clear (h : signal.isCancelled = false) (order : List Nat)
    (snapshot : Snapshot) :
    runner.runPassIn order snapshot signal =
      runner.close snapshot.version (runner.execution order snapshot signal) := by
  rw [runPassIn, if_neg (Bool.eq_false_iff.1 h)]
  rfl

/-- The outcome of a pass depends on what its rules contribute and on the signal. -/
theorem close_outcome (version : Nat) (finished : Execution σ) :
    (runner.close version finished).1 = verdict version finished.contributions finished.signal := by
  unfold close verdict
  split
  · rfl
  · split <;> rfl

/-- A pass that ends keeps the states of its rules. -/
theorem close_runner (version : Nat) (finished : Execution σ) :
    (runner.close version finished).2.1 = { runner with rules := finished.rules } := by
  unfold close
  split
  · rfl
  · split <;> rfl

/-- Before its turn comes a rule is as it was reset. -/
theorem getElem?_executionOf (runner : Runner σ) {places : List Nat} {place : Nat}
    (hplace : place ∉ places) (snapshot : Snapshot) (signal : Signal) :
    (runner.executionOf places snapshot signal).rules[place]? =
      runner.rules[place]?.map (·.reset) := by
  rw [executionOf, Execution.getElem?_foldl_of_not_mem hplace]
  exact List.getElem?_map

end Runner

/-! ## Passes that nobody cancels -/

namespace RunOutcome

/-- The findings of a rule that ended well; none of one that did not. -/
def findings : RunOutcome → List Finding
  | .found reported => reported
  | _ => []

/-- The fault of a rule `name` that did not end well. -/
def fault? (name : String) : RunOutcome → Option Fault
  | .found _ => none
  | .failed failure => some ⟨name, failure.message⟩
  | .panicked text => some ⟨name, Contribution.panicMessage text⟩

/-- Only a rule that ended well has findings. -/
theorem exists_eq_found {outcome : RunOutcome} {finding : Finding} (h : finding ∈ outcome.findings) :
    ∃ findings, outcome = .found findings ∧ finding ∈ findings := by
  cases outcome with
  | found findings => exact ⟨findings, rfl, h⟩
  | failed failure => cases h
  | panicked text => cases h

end RunOutcome

/-- The set of the findings and faults that some outcomes stand for, in the order of the rules. -/
def ResultSet.ofOutcomes (context : PassContext) (rules : List (RuleInstance σ)) : ResultSet where
  snapshotVersion := context.snapshot.version
  findings := rules.flatMap fun rule ↦ (rule.outcome context).findings
  faults := rules.filterMap fun rule ↦ (rule.outcome context).fault? rule.name

/-- If no rule is cancelled, the result set holds what all rules contribute. -/
theorem ResultSet.ofContributions?_map {context : PassContext} {rules : List (RuleInstance σ)}
    (hended : ∀ rule ∈ rules, rule.outcome context ≠ .failed .cancelled) :
    ofContributions? context.snapshot.version
        (rules.map fun rule ↦ .ofOutcome rule.name (rule.outcome context)) =
      some (ofOutcomes context rules) := by
  induction rules with
  | nil => rfl
  | cons rule rest ih =>
    have hrest := ih fun other hother ↦ hended other (List.mem_cons_of_mem rule hother)
    have hrule := hended rule List.mem_cons_self
    rw [List.map_cons, ofContributions?, hrest]
    change (ofOutcomes context rest).add _ = some (ofOutcomes context (rule :: rest))
    simp only [ofOutcomes, List.flatMap_cons, List.filterMap_cons]
    cases houtcome : rule.outcome context with
    | found reported => rfl
    | panicked text => rfl
    | failed failure =>
      cases failure with
      | cancelled => exact absurd houtcome hrule
      | _ => rfl

/-- A pass that nobody cancels has the findings and faults of its rules, whatever their order. -/
theorem Runner.runPassIn_clear (runner : Runner σ) (order : List Nat) (snapshot : Snapshot)
    (hclear : ∀ rule ∈ runner.rules, rule.KeepsClear ⟨snapshot, runner.severities⟩)
    (hended : ∀ rule ∈ runner.rules,
      rule.outcome ⟨snapshot, runner.severities⟩ ≠ .failed .cancelled) :
    (runner.runPassIn order snapshot .clear).1 =
      .ok (.ofOutcomes ⟨snapshot, runner.severities⟩ runner.rules) := by
  let context : PassContext := ⟨snapshot, runner.severities⟩
  let start : Execution σ :=
    ⟨runner.rules.map (·.reset), runner.rules.map fun _ ↦ .cancelled, Signal.clear.next⟩
  let finished := (schedule order runner.rules.length).foldl (Execution.step context) start
  have hstart : start.Ran context runner.rules [] := by
    refine ⟨rfl, by simp [start], ?_, ?_⟩
    · intro place _
      simp [start]
    · intro place hplace
      cases hplace
  have hran : finished.Ran context runner.rules
      ((schedule order runner.rules.length).reverse ++ []) :=
    hstart.foldl hclear (nodup_schedule order _) fun _ _ ↦ List.not_mem_nil
  have hcontributions : finished.contributions =
      runner.rules.map fun rule ↦ .ofOutcome rule.name (rule.outcome context) := by
    apply List.ext_getElem?
    intro place
    rw [List.getElem?_map]
    by_cases hlt : place < runner.rules.length
    · refine hran.contributed ?_
      simpa using mem_schedule.2 hlt
    · have hle : runner.rules.length ≤ place := Nat.le_of_not_lt hlt
      rw [List.getElem?_eq_none_iff.2 hle, Option.map_none, List.getElem?_eq_none_iff,
        hran.length_eq]
      exact hle
  have hset : ResultSet.ofContributions? snapshot.version finished.contributions =
      some (.ofOutcomes context runner.rules) := by
    rw [hcontributions]
    exact ResultSet.ofContributions?_map hended
  have hsignal : finished.signal = .clear := hran.signal_eq
  have hgoing : ¬Signal.clear.isCancelled := Bool.false_ne_true
  rw [runPassIn, if_neg hgoing]
  dsimp only
  rw [hset, hsignal]
  dsimp only
  rw [if_neg hgoing]

end VbaLint
