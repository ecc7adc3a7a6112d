import VbaLint.Pass.Engine

/-!
# Sessions

A session is an engine together with the passes begun on it. Passes are begun, cancelled, run and
completed in any order; each is run once and completed once, after it has run.
-/

namespace VbaLint

variable {σ : Type}

/-- How far a pass has come. -/
inductive PassStage (σ : Type) where
  | pending (pass : PendingPass σ)
  | completed (pass : CompletedPass σ)
  | done

/-- A pass of a session. -/
structure SessionPass (σ : Type) where
  token : Nat
  stage : PassStage σ

/-- An engine and the passes begun on it, the first first. -/
structure Session (σ : Type) where
  engine : Engine σ
  passes : Array (SessionPass σ)

/-- What a user of an engine does. -/
inductive SessionStep where
  | begin (snapshot : Snapshot)
  | cancel (pass : Nat)
  /-- Run a pass, its rules in the given order, while it is cancelled after `remaining` looks. -/
  | run (pass : Nat) (order : List Nat) (remaining : Option Nat)
  | complete (pass : Nat)
  | runAll (snapshot : Snapshot)
  /-- Publish a set that no pass of the engine computed. -/
  | publish (set : ResultSet)

inductive SessionAnswer where
  | begun (pass version : Nat)
  | cancelled
  | ran (version : Nat)
  | publication (publication : Publication)
  | results (outcome : Except Failure ResultSet)
  /-- No pass with the number waits for this step. -/
  | noSuchPass

namespace Session

def new (engine : Engine σ) : Session σ := ⟨engine, #[]⟩

def stage? (session : Session σ) (pass : Nat) : Option (PassStage σ) :=
  session.passes[pass]?.map (·.stage)

def advance (session : Session σ) (pass : Nat) (stage : PassStage σ) (engine : Engine σ) :
    Session σ where
  engine
  passes := session.passes.modify pass fun known ↦ { known with stage }

def cancelledPasses (session : Session σ) : List Bool :=
  session.passes.toList.map fun pass ↦ session.engine.isCancelled pass.token

def run (session : Session σ) (pass : Nat) (order : List Nat) (remaining : Option Nat) :
    SessionAnswer × Session σ :=
  match session.stage? pass with
  | some (.pending pending) =>
    let (completed, engine) := session.engine.runIn order remaining pending
    (.ran completed.version, session.advance pass (.completed completed) engine)
  | _ => (.noSuchPass, session)

def complete (session : Session σ) (pass : Nat) : SessionAnswer × Session σ :=
  match session.stage? pass with
  | some (.completed completed) =>
    let (publication, engine) := session.engine.complete completed
    (.publication publication, session.advance pass .done engine)
  | _ => (.noSuchPass, session)

def step (session : Session σ) : SessionStep → SessionAnswer × Session σ
  | .begin snapshot =>
    let (pending, engine) := session.engine.begin snapshot
    (.begun session.passes.size snapshot.version,
      ⟨engine, session.passes.push ⟨pending.token, .pending pending⟩⟩)
  | .cancel pass =>
    match session.passes[pass]? with
    | some known => (.cancelled, { session with engine := session.engine.cancel known.token })
    | none => (.noSuchPass, session)
  | .run pass order remaining => session.run pass order remaining
  | .complete pass => session.complete pass
  | .runAll snapshot =>
    let (outcome, engine) := session.engine.runAll snapshot
    (.results outcome, { session with engine })
  | .publish set =>
    let (publication, engine) := session.engine.publish set
    (.publication publication, { session with engine })

def runSteps (session : Session σ) : List SessionStep → List SessionAnswer × Session σ
  | [] => ([], session)
  | step :: rest =>
    let (answer, session) := session.step step
    let (answers, session) := session.runSteps rest
    (answer :: answers, session)

end Session

end VbaLint
