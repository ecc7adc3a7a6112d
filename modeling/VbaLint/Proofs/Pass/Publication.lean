import VbaLint.Proofs.Pass.History
import VbaLint.Proofs.Pass.Offer

/-!
# What a session publishes

A step of a session offers a result set if it completes a pass that ended well or publishes a set
directly. What is shown is only ever replaced by an admitted set that a step offers, and so the version
shown never decreases.
-/

namespace VbaLint

variable {σ : Type}

namespace Session

def completing? (session : Session σ) : SessionStep → Option (CompletedPass σ)
  | .complete pass =>
    match session.stage? pass with
    | some (.completed completed) => some completed
    | _ => none
  | .runAll snapshot => some (session.engine.passOver snapshot)
  | _ => none

/-- The set that a step offers to be shown: the whole set of the pass that it completes, if that ended
well, or the one that it publishes. -/
def offered? (session : Session σ) : SessionStep → Option ResultSet
  | .publish set => some set
  | step => (session.completing? step).bind (·.outcome.toOption)

/-- The snapshot of the pass that a step completes, where passes were begun over `begun`. -/
def inspected? (begun : List Snapshot) : SessionStep → Option Snapshot
  | .complete pass => begun[pass]?
  | .runAll snapshot => some snapshot
  | _ => none

/-- A pass that is completed has run over the snapshot with which it was begun. -/
theorem Follows.completing {session : Session σ} {snapshots : List Snapshot}
    (h : session.Follows snapshots) {step : SessionStep} {pass : CompletedPass σ}
    (hpass : session.completing? step = some pass) :
    ∃ snapshot, inspected? snapshots step = some snapshot ∧ pass.IsRunOver snapshot := by
  cases step with
  | complete number =>
    simp only [completing?] at hpass
    split at hpass
    · next completed hcompleted =>
      cases hpass
      exact h.concerns hcompleted
    · cases hpass
  | runAll snapshot =>
    cases hpass
    exact ⟨snapshot, rfl, Engine.isRunOver_runIn _ [] none (session.engine.begin snapshot).1⟩
  | _ => cases hpass

/-- How a step may treat what is shown: it replaces it by an admitted set that it offers, and says so,
or else it leaves it alone. -/
structure PublishesInOrder (session : Session σ) (step : SessionStep) : Prop where
  published {set : ResultSet} :
    (session.step step).1.set? = some set →
      session.offered? step = some set ∧ session.engine.store.Admits set ∧
        (session.step step).2.engine.store = ⟨some set⟩
  kept :
    (session.step step).1.set? = none →
      (session.step step).2.engine.store = session.engine.store
  stale {version current : Nat} :
    (session.step step).1 = .publication (.stale version current) →
      session.engine.store.version? = some current ∧ version < current ∧
        ∃ set, session.offered? step = some set ∧ set.snapshotVersion = version
  shown {set : ResultSet} :
    session.offered? step = some set → session.engine.store.Admits set →
      (session.step step).2.engine.store = ⟨some set⟩

/-- A step either makes an offer and answers with what became of it, or neither offers nor shows
anything. -/
theorem step_offer (session : Session σ) (step : SessionStep) :
    (∃ publication,
        Offer session.engine.store (session.offered? step) publication
          (session.step step).2.engine.store ∧
        (session.step step).1.set? = publication.set? ∧
        ∀ other, (session.step step).1 = .publication other → other = publication) ∨
      (session.offered? step = none ∧
        (session.step step).2.engine.store = session.engine.store ∧
        (session.step step).1.set? = none ∧
        ∀ other, (session.step step).1 ≠ .publication other) := by
  cases step with
  | begin snapshot =>
    exact .inr ⟨rfl, session.engine.store_begin snapshot, rfl, fun _ h ↦ by cases h⟩
  | cancel pass =>
    refine .inr ⟨rfl, ?_⟩
    simp only [Session.step]
    split <;> exact ⟨rfl, rfl, fun _ h ↦ by cases h⟩
  | run pass order remaining =>
    refine .inr ⟨rfl, ?_⟩
    simp only [Session.step, Session.run]
    split
    · exact ⟨session.engine.store_runIn order remaining _, rfl, fun _ h ↦ by cases h⟩
    · exact ⟨rfl, rfl, fun _ h ↦ by cases h⟩
  | complete pass =>
    simp only [offered?, completing?, Session.step, Session.complete]
    rcases session.stage? pass with - | stage
    · exact .inr ⟨rfl, rfl, rfl, fun _ h ↦ by cases h⟩
    · cases stage with
      | completed completed =>
        exact .inl ⟨_, session.engine.complete_offer completed, rfl, fun other h ↦ by cases h; rfl⟩
      | _ => exact .inr ⟨rfl, rfl, rfl, fun _ h ↦ by cases h⟩
  | runAll snapshot =>
    refine .inl ⟨(session.engine.completion snapshot).1, ?_, ?_, fun _ h ↦ by cases h⟩
    · have h := session.engine.completion_offer snapshot
      rw [← Engine.runAll_snd] at h
      exact h
    · exact session.engine.toOption_runAll snapshot
  | publish set =>
    exact .inl ⟨_, session.engine.publish_offer set, rfl, fun other h ↦ by cases h; rfl⟩

/-- Every step publishes in order. -/
theorem step_publishesInOrder (session : Session σ) (step : SessionStep) :
    session.PublishesInOrder step := by
  rcases session.step_offer step with ⟨publication, hoffer, hset, hanswer⟩ |
    ⟨hnone, hstore, hset, hanswer⟩
  · constructor
    · intro set h
      exact hoffer.published_of_set? (hset.symm.trans h)
    · intro h
      exact hoffer.eq_of_set?_eq_none (hset.symm.trans h)
    · intro version current h
      rw [← hanswer _ h] at hoffer
      exact hoffer.stale_cases
    · intro set h hadmits
      rw [h] at hoffer
      exact hoffer.shown_of_admits hadmits
  · constructor
    · intro set h
      cases hset.symm.trans h
    · intro _
      exact hstore
    · intro version current h
      exact absurd h (hanswer _)
    · intro set h
      cases hnone.symm.trans h

theorem notAfter_step (session : Session σ) (step : SessionStep) :
    session.engine.store.NotAfter (session.step step).2.engine.store := by
  rcases session.step_offer step with ⟨publication, hoffer, -⟩ | ⟨-, hstore, -⟩
  · exact hoffer.notAfter
  · rw [hstore]
    exact .refl _

theorem notAfter_runSteps (session : Session σ) (steps : List SessionStep) :
    session.engine.store.NotAfter (session.runSteps steps).2.engine.store := by
  induction steps generalizing session with
  | nil => exact .refl _
  | cons step rest ih => exact (session.notAfter_step step).trans (ih (session.step step).2)

/-- Whatever was done in a session, its next step publishes in order: what is shown is only ever
replaced by a set that the step offers and that is not older. If the step completes a pass, the set
is the whole outcome of a run over the snapshot of that pass. And whatever is done next, the version
that is shown does not decrease. -/
theorem publishes_in_order (catalog : Catalog σ) (config : Config) (before : List SessionStep)
    (step : SessionStep) (after : List SessionStep) :
    let session := ((Session.new (.new catalog config)).runSteps before).2
    session.PublishesInOrder step ∧
      (∀ pass, session.completing? step = some pass →
        ∃ snapshot, inspected? (SessionStep.begun before) step = some snapshot ∧
          pass.IsRunOver snapshot ∧
          ∀ set, pass.outcome = .ok set → set.snapshotVersion = snapshot.version) ∧
      session.engine.store.NotAfter ((session.step step).2.runSteps after).2.engine.store := by
  intro session
  refine ⟨session.step_publishesInOrder step, ?_, ?_⟩
  · intro pass hpass
    have hfollows := (follows_new (Engine.new catalog config)).runSteps before
    obtain ⟨snapshot, hsnapshot, hover⟩ := hfollows.completing hpass
    exact ⟨snapshot, hsnapshot, hover, fun set hset ↦ (hover.version_eq hset).trans hover.1⟩
  · exact (session.notAfter_step step).trans (notAfter_runSteps _ after)

end Session

end VbaLint
