import VbaLint.Inspection.Collector
import VbaLint.Inspection.ResultSet
import VbaLint.Inspection.Suppression
import VbaLint.NameTable

/-!
# Inspections

An inspection is one named rule. In a pass it reads the snapshot and the configured severities, and it
works at a bench: a state of its own and the signal of the pass. It ends with findings, with a failure,
or in a panic. What it keeps between passes is its state, which it resets before each. Rules of one
runner have states of one type; the state of a built-in rule is a collector.
-/

namespace VbaLint

open Source Text

/-- How a rule finds its candidates. -/
inductive Approach where
  /-- It looks at trees and collects nodes. -/
  | parseTree
  /-- It looks at declarations and their references. -/
  | reference
  deriving DecidableEq, Repr

/-- What is known of a rule without running it. -/
structure RuleInfo where
  /-- The stable name, used in configurations and annotations. -/
  name : String
  defaultSeverity : Severity
  category : Category
  description : String
  approach : Approach
  deriving DecidableEq, Repr

/-- The configured severities by the lowered name of the rule. -/
abbrev Severities := NameTable Severity

/-- What all rules of one pass read. -/
structure PassContext where
  snapshot : Snapshot
  severities : Severities

namespace PassContext

/-- The severity of the findings of a rule: as configured, or its own. -/
def severityOf (context : PassContext) (rule : RuleInfo) : Severity :=
  (context.severities.find? (lowerAsciiString rule.name)).getD rule.defaultSeverity

def finding (context : PassContext) (rule : RuleInfo) (target : Target) (message : String) :
    Finding where
  inspection := rule.name
  category := rule.category
  severity := context.severityOf rule
  message
  target
  snapshotVersion := context.snapshot.version

/-- The finding at a node, if the snapshot has the node. -/
def contextFinding? (context : PassContext) (rule : RuleInfo) (place : Context) (message : String) :
    Option Finding :=
  (context.snapshot.node? place.module place.node).map fun node ↦
    context.finding rule (.context place.module place.node node.selection) message

/-- The finding at a reference, if the snapshot has its node. -/
def referenceFinding? (context : PassContext) (rule : RuleInfo) (reference : Reference)
    (message : String) : Option Finding :=
  if context.snapshot.containsNode reference.module reference.node then
    some <| context.finding rule
      (.reference reference.module reference.node reference.selection reference.identifier
        reference.declaration) message
  else none

end PassContext

/-- Where a rule works: its state, and the signal of the pass. -/
structure Bench (σ : Type) where
  state : σ
  signal : Signal
  deriving DecidableEq, Repr

/-- How the run of a rule ends. -/
inductive RunOutcome where
  | found (findings : List Finding)
  | failed (failure : Failure)
  /-- The rule panicked, with a text if it gave one. -/
  | panicked (text : Option String)
  deriving DecidableEq, Repr

/-- A named rule with states of the type `σ`. -/
structure Inspection (σ : Type) where
  info : RuleInfo
  /-- The state of a new instance. -/
  initial : σ
  /-- The state at the beginning of a pass. -/
  reset : σ → σ
  run : PassContext → Bench σ → RunOutcome × Bench σ

namespace Inspection

/-- A rule that collects nodes of trees and reports those that are not silenced. -/
def ofTrees (info : RuleInfo) (select : Tree.SyntaxTree → List Nat)
    (message : ModuleName → String) : Inspection Collector where
  info
  initial := .empty
  reset := Collector.clear
  run context bench :=
    let (stop, collector, signal) := bench.state.collect select bench.signal context.snapshot
    let bench := ⟨collector, signal⟩
    match stop with
    | some .reused => (.panicked (some Collector.reuseMessage), bench)
    | some .cancelled => (.failed .cancelled, bench)
    | none =>
      let places := collector.contexts.toList.filter fun place ↦
        !context.snapshot.isIgnoring place.module place.node info.name
      (.found (places.filterMap fun place ↦
        context.contextFinding? info place (message place.module)), bench)

/-- The findings of `find` at each of `declarations`; the signal is looked at before each. -/
def searchDeclarations (find : Declaration → List Finding) :
    List Declaration → Signal → Option (List Finding) × Signal
  | [], signal => (some [], signal)
  | declaration :: rest, signal =>
    if signal.isCancelled then (none, signal)
    else
      let (found, signal) := searchDeclarations find rest signal.next
      (found.map (find declaration ++ ·), signal)

/-- A rule that looks at those declarations that `candidates` picks from a snapshot; it collects
nothing. -/
def ofDeclarations (info : RuleInfo) (candidates : Snapshot → List Declaration)
    (find : PassContext → Declaration → List Finding) : Inspection Collector where
  info
  initial := .empty
  reset := Collector.clear
  run context bench :=
    let (found, signal) :=
      searchDeclarations (find context) (candidates context.snapshot) bench.signal
    let bench := { bench with signal }
    match found with
    | some findings => (.found findings, bench)
    | none => (.failed .cancelled, bench)

end Inspection

end VbaLint
