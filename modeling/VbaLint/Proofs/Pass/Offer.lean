import VbaLint.Pass.Session

/-!
# Offers of result sets

A result set is offered to a store when a pass that ended well is completed, or when it is published
directly. The store admits an offered set unless it is older than the one shown. What becomes of an
offer is told by the answer, and nothing but an admitted set ever replaces what is shown.
-/

namespace VbaLint

variable {σ : Type}

namespace Store

/-- The set is not older than the one shown. -/
def Admits (store : Store) (set : ResultSet) : Prop :=
  ∀ version, store.version? = some version → version ≤ set.snapshotVersion

/-- If `earlier` shows a version, then `later` shows one that is not older. -/
def NotAfter (earlier later : Store) : Prop :=
  ∀ version, earlier.version? = some version →
    ∃ version', later.version? = some version' ∧ version ≤ version'

theorem NotAfter.refl (store : Store) : store.NotAfter store :=
  fun version h ↦ ⟨version, h, Nat.le_refl version⟩

theorem NotAfter.trans {first second third : Store} (h : first.NotAfter second)
    (h' : second.NotAfter third) : first.NotAfter third := by
  intro version hversion
  obtain ⟨version', hversion', hle⟩ := h version hversion
  obtain ⟨version'', hversion'', hle'⟩ := h' version' hversion'
  exact ⟨version'', hversion'', Nat.le_trans hle hle'⟩

/-- A set that is admitted is not older than what is shown. -/
theorem Admits.notAfter {store : Store} {set : ResultSet} (h : store.Admits set) :
    store.NotAfter ⟨some set⟩ :=
  fun version hversion ↦ ⟨set.snapshotVersion, rfl, h version hversion⟩

end Store

/-- What becomes of an offer that is made to a store: the answer, and the store afterwards. -/
inductive Offer (store : Store) : Option ResultSet → Publication → Store → Prop
  | published (set : ResultSet) (admitted : store.Admits set) :
    Offer store (some set) (.published set) ⟨some set⟩
  | stale (set : ResultSet) (current : Nat) (shown : store.version? = some current)
    (older : set.snapshotVersion < current) :
    Offer store (some set) (.stale set.snapshotVersion current) store
  | cancelled : Offer store none .cancelled store
  | failed (message : String) : Offer store none (.failed message) store

def Publication.set? : Publication → Option ResultSet
  | .published set => some set
  | _ => none

def SessionAnswer.set? : SessionAnswer → Option ResultSet
  | .publication told => told.set?
  | .results outcome => outcome.toOption
  | _ => none

namespace Offer

variable {store after : Store} {offered : Option ResultSet} {publication : Publication}

/-- A set is published only if it was offered and is not older than what was shown. -/
theorem published_of_set? (h : Offer store offered publication after) {set : ResultSet}
    (hset : publication.set? = some set) :
    offered = some set ∧ store.Admits set ∧ after = ⟨some set⟩ := by
  cases h with
  | published set' admitted =>
    cases hset
    exact ⟨rfl, admitted, rfl⟩
  | _ => cases hset

/-- If nothing is published, the same is shown as before. -/
theorem eq_of_set?_eq_none (h : Offer store offered publication after)
    (hset : publication.set? = none) : after = store := by
  cases h with
  | published => cases hset
  | _ => rfl

/-- A set is stale only if a newer one is shown. -/
theorem stale_cases {version current : Nat}
    (h : Offer store offered (.stale version current) after) :
    store.version? = some current ∧ version < current ∧
      ∃ set, offered = some set ∧ set.snapshotVersion = version := by
  cases h with
  | stale set current shown older => exact ⟨shown, older, set, rfl, rfl⟩

/-- A set that is admitted is shown when it is offered. -/
theorem shown_of_admits {set : ResultSet} (h : Offer store (some set) publication after)
    (hadmits : store.Admits set) : after = ⟨some set⟩ := by
  cases h with
  | published => rfl
  | stale set current shown older =>
    have := hadmits current shown
    omega

/-- A set that is admitted is published when it is offered. -/
theorem published_of_admits {set : ResultSet} (h : Offer store (some set) publication after)
    (hadmits : store.Admits set) : publication = .published set := by
  cases h with
  | published => rfl
  | stale set current shown older =>
    have := hadmits current shown
    omega

/-- An offer never lets anything older be shown. -/
theorem notAfter (h : Offer store offered publication after) : store.NotAfter after := by
  cases h with
  | published set admitted => exact admitted.notAfter
  | _ => exact .refl store

end Offer

/-- Publishing a set in a store offers it. -/
theorem Store.publish_offer (store : Store) (set : ResultSet) :
    Offer store (some set) (store.publish set).1 (store.publish set).2 := by
  unfold Store.publish
  cases hversion : store.version? with
  | none =>
    refine .published set ?_
    intro version h
    rw [hversion] at h
    cases h
  | some current =>
    by_cases holder : set.snapshotVersion < current
    · simp only [holder, ↓reduceIte]
      exact .stale set current hversion holder
    · simp only [holder, ↓reduceIte]
      refine .published set ?_
      intro version h
      rw [hversion] at h
      cases h
      exact Nat.le_of_not_lt holder

namespace Engine

@[simp]
theorem store_replaceInflight (engine : Engine σ) :
    engine.replaceInflight.store = engine.store := by
  unfold replaceInflight
  cases engine.inflight <;> rfl

@[simp]
theorem store_checkoutRunner (engine : Engine σ) :
    engine.checkoutRunner.2.store = engine.store := by
  unfold checkoutRunner
  split <;> rfl

@[simp]
theorem store_begin (engine : Engine σ) (snapshot : Snapshot) :
    (engine.begin snapshot).2.store = engine.store := by
  simp [begin]

@[simp]
theorem store_runIn (engine : Engine σ) (order : List Nat) (remaining : Option Nat)
    (pass : PendingPass σ) : (engine.runIn order remaining pass).2.store = engine.store := by
  unfold runIn
  dsimp only
  split <;> rfl

theorem publish_offer (engine : Engine σ) (set : ResultSet) :
    Offer engine.store (some set) (engine.publish set).1 (engine.publish set).2.store :=
  engine.store.publish_offer set

/-- Completing a pass offers what came of it. -/
theorem complete_offer (engine : Engine σ) (pass : CompletedPass σ) :
    Offer engine.store pass.outcome.toOption (engine.complete pass).1
      (engine.complete pass).2.store := by
  unfold complete
  cases houtcome : pass.outcome with
  | ok set => exact engine.store.publish_offer set
  | error failure =>
    cases failure with
    | cancelled => exact .cancelled
    | _ => exact .failed _

/-- The pass that `runAll` makes, before it is completed. -/
def passOver (engine : Engine σ) (snapshot : Snapshot) : CompletedPass σ :=
  ((engine.begin snapshot).2.run (engine.begin snapshot).1).1

def completion (engine : Engine σ) (snapshot : Snapshot) : Publication × Engine σ :=
  ((engine.begin snapshot).2.run (engine.begin snapshot).1).2.complete (engine.passOver snapshot)

/-- A whole pass offers what comes of it. -/
theorem completion_offer (engine : Engine σ) (snapshot : Snapshot) :
    Offer engine.store (engine.passOver snapshot).outcome.toOption (engine.completion snapshot).1
      (engine.completion snapshot).2.store := by
  have h := complete_offer ((engine.begin snapshot).2.run (engine.begin snapshot).1).2
    (engine.passOver snapshot)
  rw [run, store_runIn, store_begin] at h
  exact h

/-- A whole pass leaves the engine of its completion. -/
theorem runAll_snd (engine : Engine σ) (snapshot : Snapshot) :
    (engine.runAll snapshot).2 = (engine.completion snapshot).2 := by
  simp only [runAll, completion, passOver]
  split <;> rfl

/-- The answer to a whole pass is the set that it published, if it published one. -/
theorem toOption_runAll (engine : Engine σ) (snapshot : Snapshot) :
    (engine.runAll snapshot).1.toOption = (engine.completion snapshot).1.set? := by
  simp only [runAll, completion, passOver]
  split <;> simp_all [Except.toOption, Publication.set?]

end Engine

end VbaLint
