import VbaLint.Pass.Runner
import VbaLint.Pass.Store

/-!
# Engines

An engine makes passes over snapshots. Beginning a pass cancels the one still in flight; completing a
pass publishes its result set and gives its runner back for the next one. Each pass has a token, and a
token that is cancelled stays so.
-/

namespace VbaLint

variable {σ : Type}

/-- Makes passes and holds what they published. -/
structure Engine (σ : Type) where
  catalog : Catalog σ
  config : Config
  store : Store
  /-- The runners given back, the latest first. -/
  idle : List (Runner σ)
  /-- Which tokens are cancelled, by the number of the token. -/
  tokens : Array Bool
  /-- The token of the pass in flight. -/
  inflight : Option Nat

/-- A pass that was begun. -/
structure PendingPass (σ : Type) where
  snapshot : Snapshot
  runner : Runner σ
  token : Nat

structure CompletedPass (σ : Type) where
  version : Nat
  runner : Runner σ
  token : Nat
  outcome : Except Failure ResultSet

namespace Engine

def new (catalog : Catalog σ) (config : Config) : Engine σ where
  catalog
  config
  store := .empty
  idle := []
  tokens := #[]
  inflight := none

def builtIn (config : Config) : Engine Collector := new .builtIn config

def isCancelled (engine : Engine σ) (token : Nat) : Bool := engine.tokens.getD token false

def cancel (engine : Engine σ) (token : Nat) : Engine σ :=
  { engine with tokens := engine.tokens.setIfInBounds token true }

/-- Cancel the pass in flight and put a new token, the next number, in its place. -/
def replaceInflight (engine : Engine σ) : Engine σ :=
  let engine := engine.inflight.elim engine engine.cancel
  { engine with
    tokens := engine.tokens.push false
    inflight := some engine.tokens.size }

/-- A runner that was given back, or a new one. -/
def checkoutRunner (engine : Engine σ) : Runner σ × Engine σ :=
  match engine.idle with
  | runner :: rest => (runner, { engine with idle := rest })
  | [] => (.ofCatalog engine.catalog engine.config, engine)

/-- Begin a pass over a snapshot; the pass in flight is cancelled. -/
def begin (engine : Engine σ) (snapshot : Snapshot) : PendingPass σ × Engine σ :=
  let token := engine.tokens.size
  let (runner, engine) := engine.replaceInflight.checkoutRunner
  (⟨snapshot, runner, token⟩, engine)

/-- The signal that a pass with the token sees if it is cancelled from outside after `remaining` more
looks. -/
def signal (engine : Engine σ) (token : Nat) (remaining : Option Nat) : Signal :=
  if engine.isCancelled token then .cancelled else ⟨remaining⟩

/-- Run a pass, its rules in the given order. If the signal is set in the end, so is the token. -/
def runIn (engine : Engine σ) (order : List Nat) (remaining : Option Nat) (pass : PendingPass σ) :
    CompletedPass σ × Engine σ :=
  let (outcome, runner, signal) :=
    pass.runner.runPassIn order pass.snapshot (engine.signal pass.token remaining)
  (⟨pass.snapshot.version, runner, pass.token, outcome⟩,
    if signal.isCancelled then engine.cancel pass.token else engine)

/-- Run a pass that nobody cancels meanwhile, its rules from the first to the last. -/
def run (engine : Engine σ) (pass : PendingPass σ) :
    CompletedPass σ × Engine σ :=
  engine.runIn [] none pass

def publish (engine : Engine σ) (set : ResultSet) : Publication × Engine σ :=
  let (publication, store) := engine.store.publish set
  (publication, { engine with store })

/-- Give back the runner of a pass and publish its result set. -/
def complete (engine : Engine σ) (pass : CompletedPass σ) : Publication × Engine σ :=
  let engine :=
    { engine with
      idle := pass.runner :: engine.idle
      inflight := if engine.inflight = some pass.token then none else engine.inflight }
  match pass.outcome with
  | .ok set => engine.publish set
  | .error .cancelled => (.cancelled, engine)
  | .error failure => (.failed failure.message, engine)

def runAll (engine : Engine σ) (snapshot : Snapshot) : Except Failure ResultSet × Engine σ :=
  let (pending, engine) := engine.begin snapshot
  let (completed, engine) := engine.run pending
  let (publication, engine) := engine.complete completed
  match publication with
  | .published set => (.ok set, engine)
  | .stale .. =>
    (.error <| .internal <|
      "results for snapshot " ++ toString snapshot.version ++ " were superseded", engine)
  | .cancelled => (.error .cancelled, engine)
  | .failed message => (.error (.internal message), engine)

end Engine

end VbaLint
