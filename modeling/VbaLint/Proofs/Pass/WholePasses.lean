import VbaLint.Proofs.Pass.Discarding
import VbaLint.Proofs.Pass.Recycling

/-!
# What whole passes return

A whole pass is begun, run and completed at once, and its caller is told what became of its result set
when it was offered to the store. So the caller gets the set that the pass computed only if the store
takes it: if a newer version is shown already, the pass fails although nobody cancelled it.
-/

namespace VbaLint

variable {σ : Type}

/-- A version later than the given one is shown. -/
def Store.ShowsNewer (store : Store) (version : Nat) : Prop :=
  ∃ shown, store.version? = some shown ∧ version < shown

theorem Store.admits_iff {store : Store} {set : ResultSet} :
    store.Admits set ↔ ¬store.ShowsNewer set.snapshotVersion := by
  simp only [Admits, ShowsNewer, not_exists, not_and, Nat.not_lt]

/-- Why a whole pass over a snapshot fails whose set the store refuses. -/
def Failure.superseded (version : Nat) : Failure :=
  .internal ("results for snapshot " ++ toString version ++ " were superseded")

/-- What the caller of a whole pass is told, by what became of its result set. -/
def Publication.told (version : Nat) : Publication → Except Failure ResultSet
  | .published set => .ok set
  | .stale .. => .error (.superseded version)
  | .cancelled => .error .cancelled
  | .failed message => .error (.internal message)

namespace Engine

variable {engine : Engine σ} {snapshot : Snapshot} {set : ResultSet}

def nextRunner (engine : Engine σ) (snapshot : Snapshot) : Runner σ :=
  (engine.begin snapshot).1.runner

/-- Nobody cancels a whole pass from outside. -/
theorem outcome_passOver (engine : Engine σ) (snapshot : Snapshot) :
    (engine.passOver snapshot).outcome =
      ((engine.nextRunner snapshot).runPassIn [] snapshot .clear).1 := by
  rw [passOver, run, runIn, signal_begin]
  rfl

theorem runAll_fst (engine : Engine σ) (snapshot : Snapshot) :
    (engine.runAll snapshot).1 = (engine.completion snapshot).1.told snapshot.version := by
  simp only [runAll, completion, passOver]
  split <;> next hpublication => rw [hpublication]; rfl

theorem version_eq_of_passOver (h : (engine.passOver snapshot).outcome = .ok set) :
    set.snapshotVersion = snapshot.version := by
  rw [outcome_passOver] at h
  exact Runner.snapshotVersion_runPassIn h

/-- How a whole pass over the snapshot ends, by what the pass itself comes to. -/
structure ReturnsUnlessOlder (engine : Engine σ) (snapshot : Snapshot) : Prop where
  /-- Unless one of its rules cancels it, the pass computes the set of all that its rules found. -/
  computed :
    (∀ rule ∈ (engine.nextRunner snapshot).rules,
      rule.KeepsClear ⟨snapshot, (engine.nextRunner snapshot).severities⟩ ∧
        rule.outcome ⟨snapshot, (engine.nextRunner snapshot).severities⟩ ≠ .failed .cancelled) →
      (engine.passOver snapshot).outcome =
        .ok (.ofOutcomes ⟨snapshot, (engine.nextRunner snapshot).severities⟩
          (engine.nextRunner snapshot).rules)
  /-- It has a set or is cancelled, and there is no third. -/
  exists_set_iff : (∃ set, (engine.passOver snapshot).outcome = .ok set) ↔
    (engine.passOver snapshot).outcome ≠ .error .cancelled
  cancelled : (engine.passOver snapshot).outcome = .error .cancelled →
    (engine.runAll snapshot).1 = .error .cancelled ∧
      (engine.runAll snapshot).2.store = engine.store
  returned {set : ResultSet} : (engine.passOver snapshot).outcome = .ok set →
    ¬engine.store.ShowsNewer snapshot.version →
      (engine.runAll snapshot).1 = .ok set ∧ (engine.runAll snapshot).2.store = ⟨some set⟩
  refused {set : ResultSet} : (engine.passOver snapshot).outcome = .ok set →
    engine.store.ShowsNewer snapshot.version →
      (engine.runAll snapshot).1 = .error (.superseded snapshot.version) ∧
        (engine.runAll snapshot).2.store = engine.store

/-- In every state of an engine a whole pass returns the set that it computed, or says that it was
cancelled; but if a newer version is shown, it fails and the set is lost. -/
theorem whole_pass_returns_unless_older (engine : Engine σ) (snapshot : Snapshot) :
    engine.ReturnsUnlessOlder snapshot := by
  have hoffer := engine.completion_offer snapshot
  rw [← runAll_snd] at hoffer
  constructor
  · intro hrules
    rw [outcome_passOver]
    exact Runner.runPassIn_clear _ [] snapshot (fun rule hrule ↦ (hrules rule hrule).1)
      fun rule hrule ↦ (hrules rule hrule).2
  · rw [outcome_passOver, Ne, Runner.outcome_eq_cancelled_iff]
    constructor
    · rintro ⟨set, hset⟩ hnotices
      cases hnotices.outcome_eq.symm.trans hset
    · exact Runner.exists_set_of_not_notices
  · intro hcancelled
    have hcompletion : (engine.completion snapshot).1 = .cancelled := by
      rw [completion, complete, hcancelled]
    rw [hcancelled] at hoffer
    rw [runAll_fst, hcompletion]
    rw [hcompletion] at hoffer
    exact ⟨rfl, hoffer.eq_of_set?_eq_none rfl⟩
  · intro set hset hshown
    have hadmits : engine.store.Admits set := by
      rwa [Store.admits_iff, version_eq_of_passOver hset]
    rw [hset] at hoffer
    rw [runAll_fst, hoffer.published_of_admits hadmits]
    exact ⟨rfl, hoffer.shown_of_admits hadmits⟩
  · intro set hset hshown
    have hrefuses : ¬engine.store.Admits set := by
      rwa [Store.admits_iff, version_eq_of_passOver hset, not_not]
    rw [hset, Except.toOption] at hoffer
    rw [runAll_fst]
    generalize (engine.completion snapshot).1 = publication at hoffer ⊢
    generalize (engine.runAll snapshot).2.store = store at hoffer ⊢
    cases hoffer with
    | published _ admitted => exact absurd admitted hrefuses
    | stale => exact ⟨rfl, rfl⟩

/-- A whole pass over version 1 of a project without modules fails where version 2 is shown: the pass
itself came to its set. -/
theorem older_whole_pass_fails :
    let engine :=
      ((Session.new (.builtIn .default)).runSteps [.runAll (Session.emptyProject 2)]).2.engine
    engine.store.version? = some 2 ∧
      (engine.passOver (Session.emptyProject 1)).outcome = .ok (.empty 1) ∧
      (engine.runAll (Session.emptyProject 1)).1 =
        .error (.internal "results for snapshot 1 were superseded") ∧
      (engine.runAll (Session.emptyProject 1)).1 ≠ .ok (.empty 1) :=
  ⟨rfl, rfl, rfl, nofun⟩

end Engine

end VbaLint
