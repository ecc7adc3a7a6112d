import VbaLint.Pass.Session

/-!
# The passes of a session

Each pass of a session is followed back to the snapshot over which it was begun: until it is run it
waits for that snapshot, and once it has run its outcome is what a runner came to there.
-/

namespace VbaLint

variable {σ : Type}

theorem ResultSet.snapshotVersion_add {set changed : ResultSet} {contribution : Contribution}
    (h : set.add contribution = some changed) : changed.snapshotVersion = set.snapshotVersion := by
  cases contribution with
  | findings => cases h; rfl
  | fault => cases h; rfl
  | cancelled => cases h

theorem ResultSet.snapshotVersion_ofContributions? {version : Nat}
    {contributions : List Contribution} {set : ResultSet}
    (h : ofContributions? version contributions = some set) : set.snapshotVersion = version := by
  induction contributions generalizing set with
  | nil => cases h; rfl
  | cons contribution rest ih =>
    obtain ⟨later, hlater, hadd⟩ := Option.bind_eq_some_iff.1 h
    exact (snapshotVersion_add hadd).trans (ih hlater)

/-- A result set has the version of the snapshot it was made of. -/
theorem Runner.snapshotVersion_runPassIn {runner : Runner σ} {order : List Nat}
    {snapshot : Snapshot} {signal : Signal} {set : ResultSet}
    (h : (runner.runPassIn order snapshot signal).1 = .ok set) :
    set.snapshotVersion = snapshot.version := by
  unfold runPassIn at h
  dsimp only at h
  split at h
  · cases h
  · split at h
    · cases h
    · next later hlater =>
      split at h
      · cases h
      · cases h
        exact ResultSet.snapshotVersion_ofContributions? hlater

/-- The pass was made over the snapshot: its outcome is what some runner came to there. -/
def CompletedPass.IsRunOver (pass : CompletedPass σ) (snapshot : Snapshot) : Prop :=
  pass.version = snapshot.version ∧
    ∃ (runner : Runner σ) (order : List Nat) (signal : Signal),
      pass.outcome = (runner.runPassIn order snapshot signal).1

/-- The version of a pass that has run is that of its result set. -/
theorem CompletedPass.IsRunOver.version_eq {pass : CompletedPass σ} {snapshot : Snapshot}
    (h : pass.IsRunOver snapshot) {set : ResultSet} (hset : pass.outcome = .ok set) :
    set.snapshotVersion = pass.version := by
  obtain ⟨hversion, runner, order, signal, houtcome⟩ := h
  rw [hversion]
  exact Runner.snapshotVersion_runPassIn (houtcome.symm.trans hset)

/-- A pass runs over the snapshot with which it was begun. -/
theorem Engine.isRunOver_runIn (engine : Engine σ) (order : List Nat) (remaining : Option Nat)
    (pass : PendingPass σ) : (engine.runIn order remaining pass).1.IsRunOver pass.snapshot :=
  ⟨rfl, pass.runner, order, engine.signal pass.token remaining, rfl⟩

/-- What the stage of a pass over a snapshot may be. -/
def PassStage.Concerns (snapshot : Snapshot) : PassStage σ → Prop
  | .pending pass => pass.snapshot = snapshot
  | .completed pass => pass.IsRunOver snapshot
  | .done => True

/-- The snapshot over which a step begins a pass that is completed later. -/
def SessionStep.begun? : SessionStep → Option Snapshot
  | .begin snapshot => some snapshot
  | _ => none

/-- The snapshots over which passes were begun, by the number of the pass. -/
def SessionStep.begun (steps : List SessionStep) : List Snapshot := steps.filterMap begun?

namespace Session

/-- The passes of the session were begun over the given snapshots, in this order. -/
structure Follows (session : Session σ) (snapshots : List Snapshot) : Prop where
  size_eq : session.passes.size = snapshots.length
  concerns {pass : Nat} {stage : PassStage σ} :
    session.stage? pass = some stage →
      ∃ snapshot, snapshots[pass]? = some snapshot ∧ stage.Concerns snapshot

@[simp]
theorem stage?_advance (session : Session σ) (pass other : Nat) (stage : PassStage σ)
    (engine : Engine σ) :
    (session.advance pass stage engine).stage? other =
      if pass = other then (session.stage? other).map fun _ ↦ stage else session.stage? other := by
  unfold advance stage?
  rw [Array.getElem?_modify]
  split
  · simp [Function.comp_def]
  · rfl

/-- A session follows its snapshots if each change of a stage concerns the same snapshot. -/
theorem Follows.advance {session : Session σ} {snapshots : List Snapshot}
    (h : session.Follows snapshots) {pass : Nat} {old stage : PassStage σ}
    (hold : session.stage? pass = some old)
    (hstage : ∀ snapshot, old.Concerns snapshot → stage.Concerns snapshot) (engine : Engine σ) :
    (session.advance pass stage engine).Follows snapshots := by
  constructor
  · simpa [Session.advance] using h.size_eq
  · intro other stage' hother
    rw [stage?_advance] at hother
    split at hother
    · next heq =>
      subst heq
      rw [hold] at hother
      cases hother
      obtain ⟨snapshot, hsnapshot, hconcerns⟩ := h.concerns hold
      exact ⟨snapshot, hsnapshot, hstage snapshot hconcerns⟩
    · exact h.concerns hother

/-- Running a pass leaves the snapshots of all passes. -/
theorem Follows.run {session : Session σ} {snapshots : List Snapshot}
    (h : session.Follows snapshots) (pass : Nat) (order : List Nat) (remaining : Option Nat) :
    (session.run pass order remaining).2.Follows snapshots := by
  unfold Session.run
  split
  · next pending hpending =>
    refine h.advance hpending ?_ _
    intro snapshot hsnapshot
    exact hsnapshot ▸ session.engine.isRunOver_runIn order remaining pending
  · exact h

/-- Completing a pass leaves the snapshots of all passes. -/
theorem Follows.complete {session : Session σ} {snapshots : List Snapshot}
    (h : session.Follows snapshots) (pass : Nat) : (session.complete pass).2.Follows snapshots := by
  unfold Session.complete
  split
  · next completed hcompleted => exact h.advance hcompleted (fun snapshot _ ↦ by trivial) _
  · exact h

/-- Each pass that is begun has its own snapshot. -/
theorem Follows.begin {session : Session σ} {snapshots : List Snapshot}
    (h : session.Follows snapshots) (snapshot : Snapshot) :
    (session.step (.begin snapshot)).2.Follows (snapshots ++ [snapshot]) := by
  constructor
  · simp [step, h.size_eq]
  · intro pass stage hstage
    simp only [step, stage?, Array.getElem?_push] at hstage
    split at hstage
    · next heq =>
      cases hstage
      refine ⟨snapshot, ?_, rfl⟩
      rw [heq, h.size_eq]
      exact List.getElem?_concat_length
    · obtain ⟨earlier, hearlier, hconcerns⟩ := h.concerns hstage
      have hlt : pass < snapshots.length := (List.getElem?_eq_some_iff.1 hearlier).1
      exact ⟨earlier, by rw [List.getElem?_append_left hlt, hearlier], hconcerns⟩

theorem Follows.of_passes_eq {session other : Session σ} {snapshots : List Snapshot}
    (h : session.Follows snapshots) (hpasses : other.passes = session.passes) :
    other.Follows snapshots := by
  constructor
  · rw [hpasses, h.size_eq]
  · intro pass stage hstage
    have hsame : session.stage? pass = some stage := by
      rw [stage?, ← hpasses]
      exact hstage
    exact h.concerns hsame

/-- A step keeps the session in line with the snapshots of its passes. -/
theorem Follows.step {session : Session σ} {snapshots : List Snapshot}
    (h : session.Follows snapshots) (step : SessionStep) :
    (session.step step).2.Follows (snapshots ++ step.begun?.toList) := by
  cases hbegun : step.begun? with
  | some snapshot =>
    cases step <;> cases hbegun
    exact h.begin snapshot
  | none =>
    rw [Option.toList_none, List.append_nil]
    cases step with
    | begin snapshot => cases hbegun
    | run pass order remaining => exact h.run pass order remaining
    | complete pass => exact h.complete pass
    | cancel pass =>
      simp only [Session.step]
      split
      · exact h.of_passes_eq rfl
      · exact h
    | runAll snapshot => exact h.of_passes_eq rfl
    | publish set => exact h.of_passes_eq rfl

/-- After any steps the passes of the session are those that the steps began. -/
theorem Follows.runSteps {session : Session σ} {snapshots : List Snapshot}
    (h : session.Follows snapshots) (steps : List SessionStep) :
    (session.runSteps steps).2.Follows (snapshots ++ SessionStep.begun steps) := by
  induction steps generalizing session snapshots with
  | nil => simpa [Session.runSteps, SessionStep.begun] using h
  | cons step rest ih =>
    have hrest := ih (h.step step)
    rw [List.append_assoc] at hrest
    have hbegun : SessionStep.begun (step :: rest) =
        step.begun?.toList ++ SessionStep.begun rest := by
      unfold SessionStep.begun
      rw [List.filterMap_cons]
      cases step.begun? <;> rfl
    rw [hbegun]
    exact hrest

/-- No pass was begun before anything was done. -/
theorem follows_new (engine : Engine σ) : (Session.new engine).Follows [] := by
  constructor
  · rfl
  · intro pass stage h
    simp [stage?, Session.new] at h

end Session

end VbaLint
