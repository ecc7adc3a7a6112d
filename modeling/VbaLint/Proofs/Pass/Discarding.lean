import Mathlib.Data.List.Induction
import VbaLint.Proofs.Pass.Cancellation
import VbaLint.Proofs.Pass.Publication
import VbaLint.Proofs.Pass.Supersession

/-!
# Which cancelled passes are discarded

A pass looks at its token while it runs, and its outcome tells what it saw. When the pass is completed
only the outcome counts: a pass that saw that it was cancelled is discarded, and one that was cancelled
behind its last look is offered to the store like any other.
-/

namespace VbaLint

variable {σ : Type}

/-! ## What a runner notices -/

namespace Runner

variable {runner : Runner σ} {order : List Nat} {snapshot : Snapshot} {signal : Signal}

/-- The signal is set when the pass looks at it first or last, or one of its rules says that the pass is
cancelled. -/
def Notices (runner : Runner σ) (order : List Nat) (snapshot : Snapshot) (signal : Signal) : Prop :=
  signal.isCancelled = true ∨
    (runner.execution order snapshot signal).signal.isCancelled = true ∨
    .cancelled ∈ (runner.execution order snapshot signal).contributions

/-- A pass that notices its signal is cancelled. -/
theorem Notices.outcome_eq (h : runner.Notices order snapshot signal) :
    (runner.runPassIn order snapshot signal).1 = .error .cancelled := by
  cases hset : signal.isCancelled with
  | true => rw [runPassIn_of_isCancelled hset]
  | false =>
    rw [runPassIn_of_clear hset, close_outcome]
    rcases h with h | h | h
    · cases hset.symm.trans h
    · rw [Signal.isCancelled_iff.1 h, verdict_cancelled]
    · exact verdict_of_mem h _

/-- A pass that does not notice its signal has a result set. -/
theorem exists_set_of_not_notices (h : ¬runner.Notices order snapshot signal) :
    ∃ set, (runner.runPassIn order snapshot signal).1 = .ok set := by
  obtain ⟨hclear, hlast, hended⟩ : signal.isCancelled = false ∧
      (runner.execution order snapshot signal).signal.isCancelled = false ∧
      .cancelled ∉ (runner.execution order snapshot signal).contributions := by
    simpa [Notices] using h
  rw [runPassIn_of_clear hclear, close_outcome, verdict, hlast]
  cases hwhole : ResultSet.ofContributions? snapshot.version
      (runner.execution order snapshot signal).contributions with
  | none => exact absurd (ResultSet.ofContributions?_eq_none_iff.1 hwhole) hended
  | some set => exact ⟨set, rfl⟩

/-- A pass comes to nothing if it notices that it was cancelled, and to a result set otherwise. -/
theorem outcome_eq_cancelled_iff :
    (runner.runPassIn order snapshot signal).1 = .error .cancelled ↔
      runner.Notices order snapshot signal := by
  refine ⟨fun hcancelled ↦ ?_, Notices.outcome_eq⟩
  by_contra h
  obtain ⟨set, hset⟩ := exists_set_of_not_notices h
  cases hcancelled.symm.trans hset

end Runner

/-! ## Where a pass was run -/

/-- A step at which a pass is run, among others. -/
structure PassRun (σ : Type) where
  /-- The steps before it. -/
  earlier : List SessionStep
  /-- The pass as it waits for the step. -/
  pending : PendingPass σ
  order : List Nat
  remaining : Option Nat
  /-- The steps after it. -/
  later : List SessionStep

namespace PassRun

variable (run : PassRun σ) (initial : Session σ)

def start : Session σ := (initial.runSteps run.earlier).2

def signal : Signal := (run.start initial).engine.signal run.pending.token run.remaining

def outcome : Except Failure ResultSet :=
  (run.pending.runner.runPassIn run.order run.pending.snapshot (run.signal initial)).1

def Notices : Prop :=
  run.pending.runner.Notices run.order run.pending.snapshot (run.signal initial)

/-- In the given steps the pass of the number is run so. -/
structure IsIn (steps : List SessionStep) (pass : Nat) : Prop where
  steps_eq : steps = run.earlier ++ .run pass run.order run.remaining :: run.later
  pending : (run.start initial).stage? pass = some (.pending run.pending)

end PassRun

namespace Session

variable {session initial : Session σ} {steps : List SessionStep} {pass : Nat}
  {completed : CompletedPass σ}

theorem runSteps_concat (session : Session σ) (steps : List SessionStep) (step : SessionStep) :
    (session.runSteps (steps ++ [step])).2 = ((session.runSteps steps).2.step step).2 := by
  induction steps generalizing session with
  | nil => rfl
  | cons first rest ih => exact ih (session.step first).2

theorem stage?_advance_of_ne {other : Nat} (h : other ≠ pass) (stage : PassStage σ)
    (engine : Engine σ) : (session.advance other stage engine).stage? pass = session.stage? pass := by
  rw [stage?_advance, if_neg h]

/-- A pass that was run stays as it is until it is completed itself. -/
theorem stage?_step_of_completed (hcompleted : session.stage? pass = some (.completed completed))
    {step : SessionStep} (hstep : step ≠ .complete pass) :
    (session.step step).2.stage? pass = some (.completed completed) := by
  cases step with
  | begin snapshot =>
    obtain ⟨known, hknown, hstage⟩ := exists_of_stage? hcompleted
    have hlt : pass < session.passes.size := (Array.getElem?_eq_some_iff.1 hknown).1
    rw [Session.step, stage?, Array.getElem?_push_lt hlt, ← Array.getElem?_eq_getElem hlt]
    exact hcompleted
  | cancel other =>
    simp only [Session.step]
    split <;> exact hcompleted
  | run other order remaining =>
    simp only [Session.step, Session.run]
    split
    · next pending hpending =>
      have hne : other ≠ pass := by
        rintro rfl
        cases hpending.symm.trans hcompleted
      rw [stage?_advance_of_ne hne]
      exact hcompleted
    · exact hcompleted
  | complete other =>
    have hne : other ≠ pass := fun hsame ↦ hstep (congrArg SessionStep.complete hsame)
    simp only [Session.step, Session.complete]
    split
    · rw [stage?_advance_of_ne hne]
      exact hcompleted
    · exact hcompleted
  | runAll | publish => exact hcompleted

/-- Only by running it a step makes a pass one that was run. -/
theorem completed_of_step {step : SessionStep}
    (hcompleted : (session.step step).2.stage? pass = some (.completed completed)) :
    session.stage? pass = some (.completed completed) ∨
      ∃ order remaining pending, step = .run pass order remaining ∧
        session.stage? pass = some (.pending pending) ∧
        completed = (session.engine.runIn order remaining pending).1 := by
  cases step with
  | begin snapshot =>
    left
    simp only [Session.step, stage?, Array.getElem?_push] at hcompleted
    split at hcompleted
    · cases hcompleted
    · exact hcompleted
  | cancel other =>
    left
    simp only [Session.step] at hcompleted
    split at hcompleted <;> exact hcompleted
  | run other order remaining =>
    simp only [Session.step, Session.run] at hcompleted
    split at hcompleted
    · next pending hpending =>
      rw [stage?_advance] at hcompleted
      split at hcompleted
      · next hsame =>
        subst hsame
        rw [hpending] at hcompleted
        cases hcompleted
        exact .inr ⟨order, remaining, pending, rfl, hpending, rfl⟩
      · exact .inl hcompleted
    · exact .inl hcompleted
  | complete other =>
    left
    simp only [Session.step, Session.complete] at hcompleted
    split at hcompleted
    · rw [stage?_advance] at hcompleted
      split at hcompleted
      · cases hstage : session.stage? pass <;> rw [hstage] at hcompleted <;> cases hcompleted
      · exact hcompleted
    · exact hcompleted
  | runAll | publish => exact .inl hcompleted

/-- A pass that was run, was run at one of the steps of the session. -/
theorem exists_run (engine : Engine σ)
    (hcompleted : ((new engine).runSteps steps).2.stage? pass = some (.completed completed)) :
    ∃ run : PassRun σ, run.IsIn (new engine) steps pass ∧
      completed.outcome = run.outcome (new engine) := by
  induction steps using List.reverseRecOn with
  | nil => simp [runSteps, new, stage?] at hcompleted
  | append_singleton steps step ih =>
    rw [runSteps_concat] at hcompleted
    rcases completed_of_step hcompleted with hbefore | ⟨order, remaining, pending, rfl, hpending, rfl⟩
    · obtain ⟨run, hrun, houtcome⟩ := ih hbefore
      refine ⟨{ run with later := run.later ++ [step] }, ⟨?_, hrun.pending⟩, houtcome⟩
      rw [hrun.steps_eq, List.append_assoc, List.cons_append]
    · exact ⟨⟨steps, pending, order, remaining, []⟩, ⟨rfl, hpending⟩, rfl⟩

/-! ## Completion -/

/-- A pass that was cancelled before it is run notices it. -/
theorem notices_of_isCancelled {run : PassRun σ} (horderly : (run.start initial).Orderly)
    (hpending : (run.start initial).stage? pass = some (.pending run.pending))
    (hcancelled : (run.start initial).IsCancelled pass) : run.Notices initial := by
  obtain ⟨known, hknown, hset⟩ := isCancelled_iff.1 hcancelled
  obtain ⟨known', hknown', hstage⟩ := exists_of_stage? hpending
  cases Option.some.inj (hknown'.symm.trans hknown)
  have htoken : run.pending.token = known.token := horderly.token_eq hknown (by rw [hstage]; rfl)
  left
  rw [PassRun.signal, Engine.signal, htoken, if_pos hset]
  rfl

/-- How a pass that was run is treated when it is completed after the given steps. -/
structure CompletesAsRun (session initial : Session σ) (steps : List SessionStep) (pass : Nat)
    (run : PassRun σ) : Prop where
  isIn : run.IsIn initial steps pass
  /-- It is discarded if it noticed that it was cancelled, and only then. -/
  cancelled_iff :
    (session.step (.complete pass)).1 = .publication .cancelled ↔ run.Notices initial
  kept : run.Notices initial →
    (session.step (.complete pass)).2.engine.store = session.engine.store
  /-- Otherwise its result set is offered, whether its token is cancelled by now or not. -/
  offered : ¬run.Notices initial → ∃ set publication, run.outcome initial = .ok set ∧
    (session.step (.complete pass)).1 = .publication publication ∧
    Offer session.engine.store (some set) publication
      (session.step (.complete pass)).2.engine.store
  /-- It noticed it if it was cancelled before it was run. -/
  noticed : (run.start initial).IsCancelled pass → run.Notices initial
  /-- Nothing that is done before it is completed makes another outcome of it, also not what cancels
  it. -/
  settled {step : SessionStep} : step ≠ .complete pass →
    (session.step step).2.completing? (.complete pass) = session.completing? (.complete pass)

/-- The passes that were run and are not completed are treated by what they noticed when they were
run. -/
def DiscardsNoticed (session initial : Session σ) (steps : List SessionStep) : Prop :=
  ∀ {pass : Nat} {completed : CompletedPass σ}, session.stage? pass = some (.completed completed) →
    ∃ run : PassRun σ, session.CompletesAsRun initial steps pass run

/-- A pass that was run is discarded if it noticed, at one of its looks, that it was cancelled. If it was
cancelled later than that, by whomever, completing it offers its result set. -/
theorem cancelled_passes_are_discarded_if_noticed (catalog : Catalog σ) (config : Config)
    (steps : List SessionStep) :
    let initial := Session.new (.new catalog config)
    (initial.runSteps steps).2.DiscardsNoticed initial steps := by
  intro initial pass completed hcompleted
  obtain ⟨run, hrun, houtcome⟩ := exists_run _ hcompleted
  refine ⟨run, ?_⟩
  set session := (initial.runSteps steps).2
  have hanswer : (session.step (.complete pass)).1 =
      .publication (session.engine.complete completed).1 := by
    simp only [Session.step, Session.complete, hcompleted]
  have hstore : (session.step (.complete pass)).2.engine.store =
      (session.engine.complete completed).2.store := by
    simp only [Session.step, Session.complete, hcompleted, advance]
  have hoffer := session.engine.complete_offer completed
  have hnoticed (h : run.Notices initial) : completed.outcome = .error .cancelled :=
    houtcome.trans h.outcome_eq
  have hunnoticed (h : ¬run.Notices initial) : ∃ set, run.outcome initial = .ok set ∧
      completed.outcome = .ok set := by
    obtain ⟨set, hset⟩ := Runner.exists_set_of_not_notices h
    exact ⟨set, hset, houtcome.trans hset⟩
  constructor
  · exact hrun
  · rw [hanswer]
    constructor
    · intro hcancelled
      by_contra h
      obtain ⟨set, -, hset⟩ := hunnoticed h
      rw [hset, SessionAnswer.publication.inj hcancelled] at hoffer
      cases hoffer
    · intro h
      rw [Engine.complete, hnoticed h]
  · intro h
    rw [hstore]
    refine hoffer.eq_of_set?_eq_none ?_
    rw [Engine.complete, hnoticed h]
    rfl
  · intro h
    obtain ⟨set, hset, hoffered⟩ := hunnoticed h
    rw [hoffered] at hoffer
    exact ⟨set, _, hset, hanswer, hstore ▸ hoffer⟩
  · exact notices_of_isCancelled ((orderly_new catalog config).runSteps run.earlier) hrun.pending
  · intro step hstep
    simp only [completing?, hcompleted, stage?_step_of_completed hcompleted hstep]

/-! ## A pass that is cancelled too late -/

def emptyProject (version : Nat) : Snapshot := ⟨version, "Book", [], #[]⟩

/-- A pass is begun and run, and then something else is done. -/
def afterRun (step : SessionStep) : Session Collector :=
  ((Session.new (.builtIn .default)).runSteps [.begin (emptyProject 1), .run 0 [] none, step]).2

/-- By the step a pass is cancelled that was run before, and yet it is published. -/
def CancelsTooLate (step : SessionStep) : Prop :=
  (afterRun step).IsCancelled 0 ∧
    ((afterRun step).step (.complete 0)).1 = .publication (.published (.empty 1)) ∧
    ((afterRun step).step (.complete 0)).1 ≠ .publication .cancelled

/-- Once it was run a pass is published, although its owner has cancelled it or another pass was begun or
made since. -/
theorem late_cancellation_is_not_noticed :
    CancelsTooLate (.cancel 0) ∧ CancelsTooLate (.begin (emptyProject 1)) ∧
      CancelsTooLate (.runAll (emptyProject 1)) :=
  ⟨⟨rfl, rfl, nofun⟩, ⟨rfl, rfl, nofun⟩, ⟨rfl, rfl, nofun⟩⟩

end Session

end VbaLint
