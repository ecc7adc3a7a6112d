import VbaLint.Proofs.Pass.Execution

/-!
# Isolation of faults

A rule that fails or panics costs a pass only what that rule itself would have found: the findings and
the faults of all others are there, in the order of the list, wherever the rule stands.
-/

namespace VbaLint

variable {σ : Type}

namespace ResultSet

@[simp]
theorem findings_ofOutcomes_append (context : PassContext) (before after : List (RuleInstance σ)) :
    (ofOutcomes context (before ++ after)).findings =
      (ofOutcomes context before).findings ++ (ofOutcomes context after).findings :=
  List.flatMap_append

@[simp]
theorem faults_ofOutcomes_append (context : PassContext) (before after : List (RuleInstance σ)) :
    (ofOutcomes context (before ++ after)).faults =
      (ofOutcomes context before).faults ++ (ofOutcomes context after).faults :=
  List.filterMap_append

/-- A rule with a fault has no findings, so only the list of faults grows by it. -/
theorem ofOutcomes_cons_of_fault {context : PassContext} {rule : RuleInstance σ} {fault : Fault}
    (h : (rule.outcome context).fault? rule.name = some fault) (rest : List (RuleInstance σ)) :
    ofOutcomes context (rule :: rest) =
      { ofOutcomes context rest with faults := fault :: (ofOutcomes context rest).faults } := by
  have hfindings : (rule.outcome context).findings = [] := by
    cases houtcome : rule.outcome context with
    | found reported =>
      rw [houtcome] at h
      cases h
    | failed => rfl
    | panicked => rfl
  simp [ofOutcomes, hfindings, h]

/-- Putting a rule with a fault between others changes nothing but the list of faults. -/
theorem ofOutcomes_insert_of_fault {context : PassContext} {rule : RuleInstance σ} {fault : Fault}
    (h : (rule.outcome context).fault? rule.name = some fault)
    (before after : List (RuleInstance σ)) :
    ofOutcomes context (before ++ rule :: after) =
      { ofOutcomes context (before ++ after) with
        faults := (ofOutcomes context before).faults ++
          fault :: (ofOutcomes context after).faults } := by
  have hfindings := findings_ofOutcomes_append context before (rule :: after)
  have hfaults := faults_ofOutcomes_append context before (rule :: after)
  rw [ofOutcomes_cons_of_fault h] at hfindings hfaults
  rw [← findings_ofOutcomes_append context before after] at hfindings
  rw [← hfaults]
  exact congrArg (fun findings ↦ (⟨_, findings, _⟩ : ResultSet)) hfindings

end ResultSet

/-- A pass that nobody cancels, neither from outside nor by a rule, ends well. It has the findings of
exactly the rules that ended well and a fault for every other one, in the order of the list; and
without one of the failing rules it has the same findings and the same other faults. -/
theorem faults_are_isolated (runner : Runner σ) (order : List Nat) (snapshot : Snapshot)
    (hclear : ∀ rule ∈ runner.rules, rule.KeepsClear ⟨snapshot, runner.severities⟩)
    (hended : ∀ rule ∈ runner.rules,
      rule.outcome ⟨snapshot, runner.severities⟩ ≠ .failed .cancelled) :
    let context : PassContext := ⟨snapshot, runner.severities⟩
    (runner.runPassIn order snapshot .clear).1 =
        .ok
          { snapshotVersion := snapshot.version
            findings := runner.rules.flatMap fun rule ↦ (rule.outcome context).findings
            faults := runner.rules.filterMap fun rule ↦
              (rule.outcome context).fault? rule.name } ∧
      ∀ (before after : List (RuleInstance σ)) (failing : RuleInstance σ) (fault : Fault)
        (order' : List Nat),
        runner.rules = before ++ failing :: after →
        (failing.outcome context).fault? failing.name = some fault →
        ∃ set,
          ({ runner with rules := before ++ after }.runPassIn order' snapshot .clear).1 = .ok set ∧
          set.faults = (ResultSet.ofOutcomes context before).faults ++
            (ResultSet.ofOutcomes context after).faults ∧
          (runner.runPassIn order snapshot .clear).1 =
            .ok
              { set with
                faults := (ResultSet.ofOutcomes context before).faults ++
                  fault :: (ResultSet.ofOutcomes context after).faults } := by
  intro context
  have hwhole := runner.runPassIn_clear order snapshot hclear hended
  refine ⟨hwhole, ?_⟩
  intro before after failing fault order' hrules hfault
  have hothers : ∀ rule ∈ before ++ after, rule ∈ runner.rules := by
    intro rule hrule
    rw [hrules]
    rcases List.mem_append.1 hrule with h | h
    · exact List.mem_append_left _ h
    · exact List.mem_append_right before (List.mem_cons_of_mem failing h)
  refine ⟨.ofOutcomes context (before ++ after), ?_, ?_, ?_⟩
  · exact Runner.runPassIn_clear { runner with rules := before ++ after } order' snapshot
      (fun rule hrule ↦ hclear rule (hothers rule hrule))
      (fun rule hrule ↦ hended rule (hothers rule hrule))
  · exact ResultSet.faults_ofOutcomes_append context before after
  · rw [hwhole, hrules, ResultSet.ofOutcomes_insert_of_fault hfault before after]

/-- A rule that counts its runs since it was reset. -/
def countingRule (outcome : Nat → RunOutcome) : Inspection Nat where
  info := ⟨"Counting", .warning, .codeQualityIssues, "counts its runs", .reference⟩
  initial := 0
  reset _ := 0
  run _ bench := (outcome bench.state, { bench with state := bench.state + 1 })

def countedFinding (count : Nat) : Finding where
  inspection := "Counting"
  category := .codeQualityIssues
  severity := .warning
  message := "counted"
  target := .context ⟨"Book", "Module"⟩ count .unset
  snapshotVersion := 4

/-- A rule that panics, one that has run three times before, and one that fails. -/
def countingRunner : Runner Nat where
  rules :=
    [.fresh (countingRule fun _ ↦ .panicked none),
      ⟨countingRule fun count ↦ .found [countedFinding count], 3⟩,
      .fresh (countingRule fun _ ↦ .failed (.internal "bad state"))]
  severities := .empty

theorem faults_are_isolated_counting :
    (countingRunner.runPassIn [2, 0] ⟨4, "Book", [], #[]⟩ .clear).1 =
        .ok
          { snapshotVersion := 4
            findings := [countedFinding 0]
            faults := [⟨"Counting", "panicked"⟩, ⟨"Counting", "Internal error: bad state"⟩] } ∧
      ∃ set,
        ({ countingRunner with rules := countingRunner.rules.tail }.runPassIn []
          ⟨4, "Book", [], #[]⟩ .clear).1 = .ok set ∧
        set.faults = [⟨"Counting", "Internal error: bad state"⟩] := by
  have h := faults_are_isolated countingRunner [2, 0] ⟨4, "Book", [], #[]⟩
    (by simp [countingRunner, RuleInstance.fresh, RuleInstance.KeepsClear, countingRule])
    (by simp [countingRunner, RuleInstance.fresh, RuleInstance.outcome, countingRule])
  refine ⟨h.1, ?_⟩
  obtain ⟨set, hset, hfaults, -⟩ := h.2 [] countingRunner.rules.tail
    (.fresh (countingRule fun _ ↦ .panicked none)) ⟨"Counting", "panicked"⟩ [] rfl rfl
  exact ⟨set, hset, hfaults⟩

end VbaLint
