import VbaLint.Proofs.Pass.Offer

/-!
# Superseded passes

An engine holds the token of one pass at most, that of the pass begun last. Whoever begins a pass cancels
the one that is held, and completing a pass lets go of its own token only. So of the passes of a session
that were begun and are not completed, none but the last is ever without a cancelled token.
-/

namespace VbaLint

variable {σ : Type}

/-! ## Tokens of an engine -/

namespace Engine

variable (engine : Engine σ) {token other : Nat}

@[simp]
theorem size_tokens_cancel (token : Nat) : (engine.cancel token).tokens.size = engine.tokens.size := by
  simp [cancel]

theorem isCancelled_cancel_self (h : token < engine.tokens.size) :
    (engine.cancel token).isCancelled token = true := by
  simp [isCancelled, cancel, h]

theorem isCancelled_cancel_of_ne (h : token ≠ other) :
    (engine.cancel token).isCancelled other = engine.isCancelled other := by
  rw [isCancelled, cancel, Array.getD_eq_getD_getElem?, Array.getElem?_setIfInBounds_ne h,
    ← Array.getD_eq_getD_getElem?, isCancelled]

/-- A token that is cancelled stays so. -/
theorem isCancelled_cancel (token : Nat) (h : engine.isCancelled other = true) :
    (engine.cancel token).isCancelled other = true := by
  by_cases hsame : token = other
  · subst hsame
    apply isCancelled_cancel_self
    refine Nat.lt_of_not_le fun hout ↦ ?_
    simp [isCancelled, Nat.not_lt.2 hout] at h
  · rwa [isCancelled_cancel_of_ne engine hsame]

variable (snapshot : Snapshot)

theorem tokens_begin :
    (engine.begin snapshot).2.tokens = (engine.inflight.elim engine engine.cancel).tokens.push false := by
  unfold Engine.begin checkoutRunner
  dsimp only
  split <;> rfl

@[simp]
theorem size_tokens_begin :
    (engine.begin snapshot).2.tokens.size = engine.tokens.size + 1 := by
  rw [tokens_begin]
  cases engine.inflight <;> simp

@[simp]
theorem inflight_begin : (engine.begin snapshot).2.inflight = some engine.tokens.size := by
  have hheld : engine.replaceInflight.inflight = some engine.tokens.size := by
    unfold replaceInflight
    cases engine.inflight <;> simp
  rw [← hheld]
  unfold Engine.begin checkoutRunner
  dsimp only
  split <;> rfl

/-- Beginning a pass cancels the token that the engine holds, and no other. -/
theorem isCancelled_begin_of_lt (h : token < engine.tokens.size) :
    (engine.begin snapshot).2.isCancelled token =
      (engine.isCancelled token || engine.inflight == some token) := by
  have hold : (engine.begin snapshot).2.isCancelled token =
      (engine.inflight.elim engine engine.cancel).isCancelled token := by
    have hlt : token < (engine.inflight.elim engine engine.cancel).tokens.size := by
      cases engine.inflight <;> simpa using h
    rw [isCancelled, tokens_begin, Array.getD_eq_getD_getElem?, Array.getElem?_push_lt hlt, isCancelled,
      Array.getD_eq_getD_getElem?, Array.getElem?_eq_getElem hlt]
  rw [hold]
  cases engine.inflight with
  | none => simp
  | some held =>
    by_cases hsame : held = token
    · subst hsame
      simpa using isCancelled_cancel_self engine h
    · rw [Option.elim_some, isCancelled_cancel_of_ne engine hsame]
      simp [hsame]

section Run

variable (order : List Nat) (remaining : Option Nat) (pass : PendingPass σ)

/-- Running a pass cancels its own token at most. -/
theorem runIn_eq_or_cancel :
    (engine.runIn order remaining pass).2 = engine ∨
      (engine.runIn order remaining pass).2 = engine.cancel pass.token := by
  unfold runIn
  dsimp only
  split
  · exact .inr rfl
  · exact .inl rfl

end Run

section Complete

variable (pass : CompletedPass σ)

@[simp]
theorem tokens_complete : (engine.complete pass).2.tokens = engine.tokens := by
  unfold complete
  cases pass.outcome with
  | ok set => rfl
  | error failure => cases failure <;> rfl

/-- Completing a pass lets go of its own token only. -/
theorem inflight_complete : (engine.complete pass).2.inflight =
    if engine.inflight = some pass.token then none else engine.inflight := by
  unfold complete
  cases pass.outcome with
  | ok set => rfl
  | error failure => cases failure <;> rfl

theorem isCancelled_complete :
    (engine.complete pass).2.isCancelled token = engine.isCancelled token := by
  rw [isCancelled, tokens_complete, isCancelled]

end Complete

/-- Making a whole pass treats the earlier tokens as beginning one does, and holds none in the end. -/
theorem runAll_tokens :
    (engine.runAll snapshot).2.inflight = none ∧
      (engine.runAll snapshot).2.tokens.size = engine.tokens.size + 1 ∧
      ∀ token < engine.tokens.size, (engine.runAll snapshot).2.isCancelled token =
        (engine.isCancelled token || engine.inflight == some token) := by
  let begun := (engine.begin snapshot).2
  let pending := (engine.begin snapshot).1
  have htoken : pending.token = engine.tokens.size := rfl
  have hheld : begun.inflight = some pending.token := engine.inflight_begin snapshot
  have hown : ((begun.run pending).1).token = pending.token := rfl
  have hend : (engine.runAll snapshot).2 = ((begun.run pending).2.complete (begun.run pending).1).2 :=
    engine.runAll_snd snapshot
  have hearlier {token : Nat} (hlt : token < engine.tokens.size) :=
    engine.isCancelled_begin_of_lt snapshot hlt
  rw [hend, inflight_complete, tokens_complete, hown]
  simp only [isCancelled_complete]
  rcases begun.runIn_eq_or_cancel [] none pending with hsame | hcancelled
  · rw [run, hsame]
    exact ⟨if_pos hheld, engine.size_tokens_begin snapshot, fun token hlt ↦ hearlier hlt⟩
  · rw [run, hcancelled]
    refine ⟨if_pos hheld, ?_, fun token hlt ↦ ?_⟩
    · rw [size_tokens_cancel]
      exact engine.size_tokens_begin snapshot
    · rw [isCancelled_cancel_of_ne begun (by omega)]
      exact hearlier hlt

end Engine

/-! ## Passes of a session -/

/-- The pass is not completed. -/
def PassStage.isOpen : PassStage σ → Bool
  | .done => false
  | _ => true

def PassStage.token? : PassStage σ → Option Nat
  | .pending pass => some pass.token
  | .completed pass => some pass.token
  | .done => none

/-- The step leaves the token of the pass in the engine: it neither begins a pass nor completes this
one. -/
def SessionStep.Spares (pass : Nat) : SessionStep → Prop
  | .begin _ | .runAll _ => False
  | .complete other => other ≠ pass
  | _ => True

namespace Session

variable (session : Session σ) (pass : Nat)

def IsOpen : Prop := ∃ known, session.passes[pass]? = some known ∧ known.stage.isOpen = true

def IsDone : Prop := ∃ known, session.passes[pass]? = some known ∧ known.stage.isOpen = false

def IsCancelled : Prop := session.cancelledPasses[pass]? = some true

def IsInFlight : Prop :=
  ∃ known, session.passes[pass]? = some known ∧ session.engine.inflight = some known.token

/-- How the tokens of a session are given: in the order of the passes, the latest to the engine. A pass
whose token the engine does not hold is cancelled or completed. -/
structure Orderly (session : Session σ) : Prop where
  increasing {older newer : Nat} {known later : SessionPass σ} :
    session.passes[older]? = some known → session.passes[newer]? = some later → older < newer →
      known.token < later.token
  token_lt {pass : Nat} {known : SessionPass σ} :
    session.passes[pass]? = some known → known.token < session.engine.tokens.size
  token_eq {pass : Nat} {known : SessionPass σ} {token : Nat} :
    session.passes[pass]? = some known → known.stage.token? = some token → token = known.token
  latest {token : Nat} : session.engine.inflight = some token → token + 1 = session.engine.tokens.size
  held {pass : Nat} {known : SessionPass σ} :
    session.passes[pass]? = some known → known.stage.isOpen = true →
      session.engine.isCancelled known.token = true ∨ session.engine.inflight = some known.token
  released {pass : Nat} {known : SessionPass σ} :
    session.passes[pass]? = some known → known.stage.isOpen = false →
      session.engine.inflight ≠ some known.token

variable {session : Session σ} {pass : Nat}

theorem isCancelled_iff : session.IsCancelled pass ↔
    ∃ known, session.passes[pass]? = some known ∧ session.engine.isCancelled known.token = true := by
  rw [IsCancelled, cancelledPasses, List.getElem?_map, Array.getElem?_toList]
  exact Option.map_eq_some_iff

theorem orderly_new (catalog : Catalog σ) (config : Config) :
    (Session.new (.new catalog config)).Orderly := by
  constructor <;> intros <;> simp_all [Session.new, Engine.new]

/-- A pass that has gone on keeps its token. -/
theorem exists_of_advance {stage : PassStage σ} {engine : Engine σ} {other : Nat}
    {later : SessionPass σ} (h : (session.advance pass stage engine).passes[other]? = some later) :
    ∃ known, session.passes[other]? = some known ∧ later.token = known.token ∧
      (pass = other ∧ later.stage = stage ∨ pass ≠ other ∧ later = known) := by
  rw [Session.advance, Array.getElem?_modify] at h
  split at h
  · next hsame =>
    obtain ⟨known, hknown, rfl⟩ := Option.map_eq_some_iff.1 h
    exact ⟨known, hknown, rfl, .inl ⟨hsame, rfl⟩⟩
  · next hother => exact ⟨later, h, rfl, .inr ⟨hother, rfl⟩⟩

/-- A stage that is known is that of a pass that was begun. -/
theorem exists_of_stage? {stage : PassStage σ} (h : session.stage? pass = some stage) :
    ∃ known, session.passes[pass]? = some known ∧ known.stage = stage :=
  Option.map_eq_some_iff.1 h

namespace Orderly

variable (h : session.Orderly)
include h

/-- Cancelling tokens leaves the session orderly. -/
theorem withEngine {engine : Engine σ} (hsize : engine.tokens.size = session.engine.tokens.size)
    (hinflight : engine.inflight = session.engine.inflight)
    (hcancelled : ∀ token, session.engine.isCancelled token = true → engine.isCancelled token = true) :
    ({ session with engine } : Session σ).Orderly where
  increasing := h.increasing
  token_lt hknown := hsize ▸ h.token_lt hknown
  token_eq := h.token_eq
  latest htoken := hsize ▸ h.latest (hinflight ▸ htoken)
  held hknown hopen := by
    rw [hinflight]
    exact (h.held hknown hopen).imp_left (hcancelled _)
  released hknown hdone := hinflight ▸ h.released hknown hdone

/-- A pass that goes on leaves the session orderly, if the engine lets go of its token when it is
completed. -/
theorem advance {stage : PassStage σ} {known : SessionPass σ} (hpass : session.passes[pass]? = some known)
    (htoken : ∀ token ∈ stage.token?, token = known.token)
    (hopen : known.stage.isOpen = true) {engine : Engine σ}
    (hsize : engine.tokens.size = session.engine.tokens.size)
    (hcancelled : ∀ token, session.engine.isCancelled token = true → engine.isCancelled token = true)
    (hinflight : engine.inflight =
      if stage.isOpen = false ∧ session.engine.inflight = some known.token then none
      else session.engine.inflight) :
    (session.advance pass stage engine).Orderly := by
  have hlet {token : Nat} (hheld : engine.inflight = some token) :
      session.engine.inflight = some token := by
    rw [hinflight] at hheld
    split at hheld
    · cases hheld
    · exact hheld
  constructor
  · intro older newer earlier later hearlier hlater hlt
    obtain ⟨earlier', hearlier', hsame, -⟩ := exists_of_advance hearlier
    obtain ⟨later', hlater', hsame', -⟩ := exists_of_advance hlater
    rw [hsame, hsame']
    exact h.increasing hearlier' hlater' hlt
  · intro other later hlater
    obtain ⟨known', hknown', hsame, -⟩ := exists_of_advance hlater
    rw [hsame]
    exact Nat.lt_of_lt_of_eq (h.token_lt hknown') hsize.symm
  · intro other later token hlater hstage
    obtain ⟨known', hknown', hsame, ⟨rfl, hstage'⟩ | ⟨-, rfl⟩⟩ := exists_of_advance hlater
    · rw [hsame, Option.some.inj (hknown'.symm.trans hpass)]
      exact htoken token (hstage' ▸ hstage)
    · exact h.token_eq hknown' hstage
  · intro token hheld
    exact (h.latest (hlet hheld)).trans hsize.symm
  · intro other later hlater hstage
    obtain ⟨known', hknown', hsame, ⟨rfl, hstage'⟩ | ⟨hother, rfl⟩⟩ := exists_of_advance hlater
    · cases Option.some.inj (hknown'.symm.trans hpass)
      rw [hsame]
      refine (h.held hpass hopen).imp (hcancelled _) fun hheld ↦ ?_
      have hkept : ¬(stage.isOpen = false ∧ session.engine.inflight = some known.token) := by
        rw [← hstage', hstage]
        simp
      exact (hinflight.trans (if_neg hkept)).trans hheld
    · refine (h.held hknown' hstage).imp (hcancelled _) fun hheld ↦ ?_
      have hne : known.token ≠ later.token := by
        rcases Nat.lt_or_gt_of_ne hother with hlt | hlt
        · exact Nat.ne_of_lt (h.increasing hpass hknown' hlt)
        · exact Nat.ne_of_gt (h.increasing hknown' hpass hlt)
      have hkept : ¬(stage.isOpen = false ∧ session.engine.inflight = some known.token) := by
        rintro ⟨-, hheld'⟩
        exact hne (Option.some.inj (hheld'.symm.trans hheld))
      exact (hinflight.trans (if_neg hkept)).trans hheld
  · intro other later hlater hstage hheld
    obtain ⟨known', hknown', hsame, ⟨rfl, hstage'⟩ | ⟨-, rfl⟩⟩ := exists_of_advance hlater
    · cases Option.some.inj (hknown'.symm.trans hpass)
      have hheld' := hlet hheld
      rw [hsame] at hheld'
      have hgone : engine.inflight = none := hinflight.trans (if_pos ⟨hstage' ▸ hstage, hheld'⟩)
      cases hgone.symm.trans hheld
    · exact h.released hknown' hstage (hlet hheld)

/-- A session is orderly behind the beginning of a pass. -/
theorem begin (snapshot : Snapshot) : (session.step (.begin snapshot)).2.Orderly := by
  have hbegun {other : Nat} {later : SessionPass σ}
      (hlater : (session.step (.begin snapshot)).2.passes[other]? = some later) :
      session.passes[other]? = some later ∨
        other = session.passes.size ∧ later.token = session.engine.tokens.size ∧
          later.stage = .pending (session.engine.begin snapshot).1 := by
    simp only [step, Array.getElem?_push] at hlater
    split at hlater
    · next hlast =>
      cases hlater
      exact .inr ⟨hlast, rfl, rfl⟩
    · exact .inl hlater
  have hsize : (session.step (.begin snapshot)).2.engine.tokens.size = session.engine.tokens.size + 1 :=
    session.engine.size_tokens_begin snapshot
  have hinflight : (session.step (.begin snapshot)).2.engine.inflight = some session.engine.tokens.size :=
    session.engine.inflight_begin snapshot
  constructor
  · intro older newer earlier later hearlier hlater hlt
    rcases hbegun hearlier with hold | ⟨rfl, -⟩
    · rcases hbegun hlater with hnew | ⟨-, htoken, -⟩
      · exact h.increasing hold hnew hlt
      · rw [htoken]
        exact h.token_lt hold
    · rcases hbegun hlater with hnew | ⟨rfl, -⟩
      · exact absurd (Array.getElem?_eq_some_iff.1 hnew).1 (Nat.not_lt.2 (Nat.le_of_lt hlt))
      · exact absurd hlt (Nat.lt_irrefl _)
  · intro other later hlater
    rw [hsize]
    rcases hbegun hlater with hold | ⟨-, htoken, -⟩
    · exact Nat.lt_succ_of_lt (h.token_lt hold)
    · rw [htoken]
      exact Nat.lt_succ_self _
  · intro other later token hlater hstage
    rcases hbegun hlater with hold | ⟨-, htoken, hpending⟩
    · exact h.token_eq hold hstage
    · rw [hpending] at hstage
      exact (Option.some.inj hstage).symm.trans htoken.symm
  · intro token hheld
    rw [← Option.some.inj (hinflight.symm.trans hheld)]
    exact hsize.symm
  · intro other later hlater hstage
    rcases hbegun hlater with hold | ⟨-, htoken, -⟩
    · left
      refine (session.engine.isCancelled_begin_of_lt snapshot (h.token_lt hold)).trans ?_
      rcases h.held hold hstage with hcancelled | hheld
      · rw [hcancelled, Bool.true_or]
      · rw [hheld, beq_self_eq_true, Bool.or_true]
    · right
      rw [hinflight, htoken]
  · intro other later hlater hstage hheld
    rcases hbegun hlater with hold | ⟨-, -, hpending⟩
    · have htoken := Option.some.inj (hinflight.symm.trans hheld)
      exact absurd (h.token_lt hold) (Nat.not_lt.2 (Nat.le_of_eq htoken))
    · rw [hpending] at hstage
      cases hstage

/-- A session is orderly behind a whole pass. -/
theorem runAll (snapshot : Snapshot) : (session.step (.runAll snapshot)).2.Orderly := by
  obtain ⟨hinflight, hsize, hcancelled⟩ := session.engine.runAll_tokens snapshot
  constructor
  · exact h.increasing
  · intro pass known hknown
    exact Nat.lt_of_lt_of_eq (Nat.lt_succ_of_lt (h.token_lt hknown)) hsize.symm
  · exact h.token_eq
  · intro token hheld
    cases hinflight.symm.trans hheld
  · intro pass known hknown hopen
    left
    refine (hcancelled known.token (h.token_lt hknown)).trans ?_
    rcases h.held hknown hopen with hset | hheld
    · rw [hset, Bool.true_or]
    · rw [hheld, beq_self_eq_true, Bool.or_true]
  · intro pass known _ _ hheld
    cases hinflight.symm.trans hheld

/-- A session is orderly behind the run of a pass. -/
theorem run (pass : Nat) (order : List Nat) (remaining : Option Nat) :
    (session.run pass order remaining).2.Orderly := by
  unfold Session.run
  split
  · next pending hpending =>
    obtain ⟨known, hknown, hstage⟩ := exists_of_stage? hpending
    have htoken : pending.token = known.token := h.token_eq hknown (by rw [hstage]; rfl)
    have hopen : known.stage.isOpen = true := by rw [hstage]; rfl
    have hown : ∀ token ∈ (PassStage.completed
        (session.engine.runIn order remaining pending).1).token?, token = known.token := by
      rintro token ⟨⟩
      exact htoken
    rcases session.engine.runIn_eq_or_cancel order remaining pending with hsame | hcancelled
    · refine h.advance hknown hown hopen ?_ ?_ ?_ <;> rw [hsame]
      · exact fun _ hset ↦ hset
      · exact (if_neg (by simp [PassStage.isOpen])).symm
    · refine h.advance hknown hown hopen ?_ ?_ ?_ <;> rw [hcancelled]
      · exact session.engine.size_tokens_cancel _
      · exact fun _ hset ↦ session.engine.isCancelled_cancel _ hset
      · exact (if_neg (by simp [PassStage.isOpen])).symm
  · exact h

/-- A session is orderly behind the completion of a pass. -/
theorem complete (pass : Nat) : (session.complete pass).2.Orderly := by
  unfold Session.complete
  split
  · next completed hcompleted =>
    obtain ⟨known, hknown, hstage⟩ := exists_of_stage? hcompleted
    have htoken : completed.token = known.token := h.token_eq hknown (by rw [hstage]; rfl)
    refine h.advance hknown (by rintro token ⟨⟩) (by rw [hstage]; rfl) ?_ ?_ ?_
    · rw [Engine.tokens_complete]
    · intro token hset
      rwa [Engine.isCancelled_complete]
    · rw [Engine.inflight_complete, htoken]
      simp [PassStage.isOpen]
  · exact h

/-- A step leaves the session orderly. -/
theorem step (step : SessionStep) : (session.step step).2.Orderly := by
  cases step with
  | begin snapshot => exact h.begin snapshot
  | run pass order remaining => exact h.run pass order remaining
  | complete pass => exact h.complete pass
  | cancel pass =>
    simp only [Session.step]
    split
    · exact h.withEngine (session.engine.size_tokens_cancel _) rfl fun _ hset ↦
        session.engine.isCancelled_cancel _ hset
    · exact h
  | runAll snapshot => exact h.runAll snapshot
  | publish set => exact h.withEngine rfl rfl fun _ hset ↦ hset

/-- A session is orderly behind any steps. -/
theorem runSteps (steps : List SessionStep) : (session.runSteps steps).2.Orderly := by
  induction steps generalizing session with
  | nil => exact h
  | cons step rest ih => exact ih (h.step step)

/-! ### The pass in flight -/

/-- Until a pass is begun, the engine holds the token of a pass that is not completed itself. -/
theorem isInFlight_step {step : SessionStep} (hpass : session.IsInFlight pass)
    (hspares : step.Spares pass) : (session.step step).2.IsInFlight pass := by
  obtain ⟨known, hknown, hheld⟩ := hpass
  have hadvance {other : Nat} (stage : PassStage σ) (engine : Engine σ)
      (hengine : engine.inflight = some known.token) :
      (session.advance other stage engine).IsInFlight pass := by
    refine ⟨if other = pass then { known with stage } else known, ?_, ?_⟩
    · rw [Session.advance, Array.getElem?_modify, hknown]
      split <;> rfl
    · refine hengine.trans ?_
      split <;> rfl
  cases step with
  | begin | runAll => exact hspares.elim
  | cancel other =>
    simp only [Session.step]
    split <;> exact ⟨known, hknown, hheld⟩
  | publish set => exact ⟨known, hknown, hheld⟩
  | run other order remaining =>
    simp only [Session.step, Session.run]
    split
    · next pending _ =>
      apply hadvance
      rcases session.engine.runIn_eq_or_cancel order remaining pending with hsame | hcancelled
      · rwa [hsame]
      · rwa [hcancelled]
    · exact ⟨known, hknown, hheld⟩
  | complete other =>
    simp only [Session.step, Session.complete]
    split
    · next completed hcompleted =>
      obtain ⟨known', hknown', hstage⟩ := exists_of_stage? hcompleted
      have htoken : completed.token = known'.token := h.token_eq hknown' (by rw [hstage]; rfl)
      have hne : known.token ≠ known'.token := by
        rcases Nat.lt_or_gt_of_ne (show other ≠ pass from hspares) with hlt | hlt
        · exact Nat.ne_of_gt (h.increasing hknown' hknown hlt)
        · exact Nat.ne_of_lt (h.increasing hknown hknown' hlt)
      apply hadvance
      rw [Engine.inflight_complete, htoken, hheld, if_neg (by simpa using hne)]
    · exact ⟨known, hknown, hheld⟩

theorem isInFlight_runSteps {steps : List SessionStep} (hpass : session.IsInFlight pass)
    (hspares : ∀ step ∈ steps, step.Spares pass) : (session.runSteps steps).2.IsInFlight pass := by
  induction steps generalizing session with
  | nil => exact hpass
  | cons step rest ih =>
    obtain ⟨hstep, hrest⟩ := List.forall_mem_cons.1 hspares
    exact ih (h.step step) (h.isInFlight_step hpass hstep) hrest

/-- Beginning a pass, or making a whole one, cancels the pass in flight, and no other. -/
theorem isCancelled_next {known : SessionPass σ} (hknown : session.passes[pass]? = some known)
    (snapshot : Snapshot) :
    ((session.step (.begin snapshot)).2.IsCancelled pass ↔
        session.IsCancelled pass ∨ session.IsInFlight pass) ∧
      ((session.step (.runAll snapshot)).2.IsCancelled pass ↔
        session.IsCancelled pass ∨ session.IsInFlight pass) := by
  have hlt := h.token_lt hknown
  have hiff {next : Session σ} (hnext : next.passes[pass]? = some known)
      (hcancelled : next.engine.isCancelled known.token =
        (session.engine.isCancelled known.token || session.engine.inflight == some known.token)) :
      next.IsCancelled pass ↔ session.IsCancelled pass ∨ session.IsInFlight pass := by
    rw [isCancelled_iff, isCancelled_iff, IsInFlight, hnext, hknown]
    simp [hcancelled]
  constructor
  · refine hiff ?_ (session.engine.isCancelled_begin_of_lt snapshot hlt)
    have hold : pass < session.passes.size := (Array.getElem?_eq_some_iff.1 hknown).1
    simp only [Session.step]
    rw [Array.getElem?_push_lt hold, ← Array.getElem?_eq_getElem hold, hknown]
  · exact hiff hknown ((session.engine.runAll_tokens snapshot).2.2 known.token hlt)

end Orderly

/-- At most one pass of a session is live: begun, not completed and not cancelled. -/
structure OneLive (session : Session σ) : Prop where
  /-- Of the passes that are not completed, all but the one begun last are cancelled. -/
  superseded {older newer : Nat} :
    session.IsOpen older → older < newer → newer < session.passes.size → session.IsCancelled older
  /-- All of them are, once a whole pass was made after them. -/
  superseded_runAll {pass : Nat} (snapshot : Snapshot) :
    session.IsOpen pass → (session.step (.runAll snapshot)).2.IsCancelled pass
  /-- A pass that is live is in flight. -/
  inFlight {pass : Nat} : session.IsOpen pass → ¬session.IsCancelled pass → session.IsInFlight pass
  /-- A pass is in flight when it has just been begun. -/
  begun (snapshot : Snapshot) : (session.step (.begin snapshot)).2.IsInFlight session.passes.size
  /-- The engine does not forget the pass in flight when others are completed, and cancels it when
  the next one is begun or made. -/
  remembered {pass : Nat} {between : List SessionStep} :
    session.IsInFlight pass → (∀ step ∈ between, step.Spares pass) →
      let later := (session.runSteps between).2
      later.IsInFlight pass ∧ ∀ snapshot,
        (later.step (.begin snapshot)).2.IsCancelled pass ∧
          (later.step (.runAll snapshot)).2.IsCancelled pass
  /-- A pass that was completed is not cancelled by the next one. -/
  spared {pass : Nat} (snapshot : Snapshot) :
    session.IsDone pass →
      ((session.step (.begin snapshot)).2.IsCancelled pass ↔ session.IsCancelled pass) ∧
        ((session.step (.runAll snapshot)).2.IsCancelled pass ↔ session.IsCancelled pass)

theorem Orderly.oneLive (h : session.Orderly) : session.OneLive where
  superseded := by
    rintro older newer ⟨known, hknown, hopen⟩ hlt hsize
    refine isCancelled_iff.2 ⟨known, hknown, (h.held hknown hopen).resolve_right fun hheld ↦ ?_⟩
    -- The token in flight is the last one, and the newer pass has a later one.
    have hnewer : session.passes[newer]? = some session.passes[newer] := Array.getElem?_eq_getElem hsize
    have hlatest := h.latest hheld
    have htoken := h.token_lt hnewer
    have hincreasing := h.increasing hknown hnewer hlt
    omega
  superseded_runAll := by
    rintro pass snapshot ⟨known, hknown, hopen⟩
    refine (h.isCancelled_next hknown snapshot).2.2 ((h.held hknown hopen).imp ?_ ?_)
    · exact fun hset ↦ isCancelled_iff.2 ⟨known, hknown, hset⟩
    · exact fun hheld ↦ ⟨known, hknown, hheld⟩
  inFlight := by
    rintro pass ⟨known, hknown, hopen⟩ hlive
    refine ⟨known, hknown, (h.held hknown hopen).resolve_left fun hset ↦ ?_⟩
    exact hlive (isCancelled_iff.2 ⟨known, hknown, hset⟩)
  begun snapshot := by
    refine ⟨_, Array.getElem?_push_size, ?_⟩
    exact session.engine.inflight_begin snapshot
  remembered := by
    intro pass between hpass hspares later
    have hlater : later.IsInFlight pass := h.isInFlight_runSteps hpass hspares
    refine ⟨hlater, fun snapshot ↦ ?_⟩
    obtain ⟨known, hknown, -⟩ := id hlater
    obtain ⟨hbegin, hrunAll⟩ := (h.runSteps between).isCancelled_next hknown snapshot
    exact ⟨hbegin.2 (.inr hlater), hrunAll.2 (.inr hlater)⟩
  spared := by
    rintro pass snapshot ⟨known, hknown, hdone⟩
    have hreleased : ¬session.IsInFlight pass := by
      rintro ⟨known', hknown', hheld⟩
      cases Option.some.inj (hknown'.symm.trans hknown)
      exact h.released hknown hdone hheld
    obtain ⟨hbegin, hrunAll⟩ := h.isCancelled_next hknown snapshot
    exact ⟨hbegin.trans (or_iff_left hreleased), hrunAll.trans (or_iff_left hreleased)⟩

/-- Whatever was done in a session, at most one of its passes is live. All others that are not completed
are cancelled; the engine holds the live one until it is completed itself, whichever others are completed
before, and cancels it when the next pass is begun; passes that were completed are left alone. -/
theorem at_most_one_pass_is_live (catalog : Catalog σ) (config : Config) (steps : List SessionStep) :
    ((Session.new (.new catalog config)).runSteps steps).2.OneLive :=
  ((orderly_new catalog config).runSteps steps).oneLive

end Session

end VbaLint
