import VbaLint.Rules.Catalog

/-!
# Runners

A runner owns one instance of each rule of a pass. Every rule runs behind a boundary of its own: one
that fails or panics leaves a fault and no findings, and the others go on. A cancelled pass fails and
has no results at all. The order in which the rules happen to run is an argument; findings and faults are in
the order of the list.
-/

namespace VbaLint

variable {σ : Type}

/-- A rule together with its state. -/
structure RuleInstance (σ : Type) where
  inspection : Inspection σ
  state : σ

namespace RuleInstance

def fresh (inspection : Inspection σ) : RuleInstance σ := ⟨inspection, inspection.initial⟩

/-- The instance as it is at the beginning of a pass. -/
def reset (rule : RuleInstance σ) : RuleInstance σ :=
  { rule with state := rule.inspection.reset rule.state }

def name (rule : RuleInstance σ) : String := rule.inspection.info.name

end RuleInstance

/-- What one rule contributes to a pass. -/
inductive Contribution where
  | findings (findings : List Finding)
  | fault (fault : Fault)
  | cancelled
  deriving DecidableEq, Repr

namespace Contribution

def panicMessage : Option String → String
  | some text => "panicked: " ++ text
  | none => "panicked"

/-- The contribution of the rule `name` whose run ended so. -/
def ofOutcome (name : String) : RunOutcome → Contribution
  | .found reported => .findings reported
  | .failed .cancelled => .cancelled
  | .failed failure => .fault ⟨name, failure.message⟩
  | .panicked text => .fault ⟨name, panicMessage text⟩

end Contribution

/-- Run one rule, unless the signal is already set. -/
def RuleInstance.run (context : PassContext) (rule : RuleInstance σ) (signal : Signal) :
    Contribution × RuleInstance σ × Signal :=
  if signal.isCancelled then (.cancelled, rule, signal)
  else
    let (outcome, bench) := rule.inspection.run context ⟨rule.state, signal.next⟩
    (.ofOutcome rule.name outcome, { rule with state := bench.state }, bench.signal)

/-- The rules of a pass while they run. -/
structure Execution (σ : Type) where
  rules : List (RuleInstance σ)
  /-- The contributions so far, by the place of the rule; a rule that has not run counts as
  cancelled. -/
  contributions : List Contribution
  signal : Signal

namespace Execution

def step (context : PassContext) (execution : Execution σ) (place : Nat) : Execution σ :=
  match execution.rules[place]? with
  | none => execution
  | some rule =>
    let (contribution, rule, signal) := rule.run context execution.signal
    { rules := execution.rules.set place rule
      contributions := execution.contributions.set place contribution
      signal }

end Execution

/-- The places below `count`, each once: first those that `order` names, then the others. -/
def schedule (order : List Nat) (count : Nat) : List Nat :=
  let named := (order.filter (· < count)).eraseDups
  named ++ (List.range count).filter fun place ↦ !named.contains place

def ResultSet.add (set : ResultSet) : Contribution → Option ResultSet
  | .findings findings => some { set with findings := findings ++ set.findings }
  | .fault fault => some { set with faults := fault :: set.faults }
  | .cancelled => none

/-- The result set of some contributions; none if one of them is cancelled. -/
def ResultSet.ofContributions? (version : Nat) : List Contribution → Option ResultSet
  | [] => some (.empty version)
  | contribution :: rest => do
    let set ← ofContributions? version rest
    set.add contribution

/-- The rules of a pass. -/
structure Runner (σ : Type) where
  rules : List (RuleInstance σ)
  severities : Severities

namespace Runner

def fresh (inspections : List (Inspection σ)) (severities : Severities) : Runner σ :=
  ⟨inspections.map .fresh, severities⟩

/-- A runner of the rules that a configuration leaves enabled. -/
def ofCatalog (catalog : Catalog σ) (config : Config) : Runner σ :=
  fresh (catalog.instantiateEnabled config) config.overrides

def names (runner : Runner σ) : List String := runner.rules.map (·.name)

/-- Run every rule once, in the given order. The pass fails if it was cancelled before its end. -/
def runPassIn (runner : Runner σ) (order : List Nat) (snapshot : Snapshot) (signal : Signal) :
    Except Failure ResultSet × Runner σ × Signal :=
  if signal.isCancelled then (.error .cancelled, runner, signal)
  else
    let start : Execution σ :=
      { rules := runner.rules.map (·.reset)
        contributions := runner.rules.map fun _ ↦ .cancelled
        signal := signal.next }
    let finished :=
      (schedule order runner.rules.length).foldl
        (Execution.step ⟨snapshot, runner.severities⟩) start
    let set? := ResultSet.ofContributions? snapshot.version finished.contributions
    let runner := { runner with rules := finished.rules }
    match set? with
    | none => (.error .cancelled, runner, finished.signal)
    | some set =>
      if finished.signal.isCancelled then (.error .cancelled, runner, finished.signal)
      else (.ok set, runner, finished.signal.next)

def runPass (runner : Runner σ) (snapshot : Snapshot) (signal : Signal) :
    Except Failure ResultSet × Runner σ × Signal :=
  runner.runPassIn [] snapshot signal

end Runner

end VbaLint
