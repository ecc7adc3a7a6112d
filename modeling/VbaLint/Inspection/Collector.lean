import VbaLint.Inspection.Signal
import VbaLint.Project.Snapshot

/-!
# Collectors

A rule that looks at trees records the nodes it wants in a collector, module by module. A collector
is idle, or collecting in a module, or ready; clearing makes it idle again, and only an idle and empty
one may begin a pass.
-/

namespace VbaLint

open Tree

inductive CollectorStage where
  | idle
  | collecting (module : ModuleName)
  | ready
  deriving DecidableEq, Repr

structure Context where
  module : ModuleName
  node : Nat
  deriving DecidableEq, Repr

/-- The nodes recorded so far. -/
structure Collector where
  stage : CollectorStage
  contexts : Array Context
  deriving DecidableEq, Repr

inductive CollectingStop where
  /-- The collector was not cleared since it was last used. -/
  | reused
  /-- The signal was set before a module. -/
  | cancelled
  deriving DecidableEq, Repr

namespace Collector

def empty : Collector := ⟨.idle, #[]⟩

instance : Inhabited Collector := ⟨empty⟩

def currentModule? (collector : Collector) : Option ModuleName :=
  match collector.stage with
  | .collecting module => some module
  | _ => none

def isReady (collector : Collector) : Bool := collector.stage == .ready

/-- The collector may begin a pass. -/
def isEmpty (collector : Collector) : Bool := collector.stage == .idle && collector.contexts.isEmpty

/-- What is said of a collector that is used again without being cleared. -/
def reuseMessage : String := "context collector reused without clear"

/-- Begin a pass; refused unless the collector is idle and empty. -/
def beginPass? (collector : Collector) : Option Collector :=
  if collector.isEmpty then some collector else none

def beginModule (collector : Collector) (module : ModuleName) : Collector :=
  { collector with stage := .collecting module }

/-- Record a node of the current module; outside modules nothing is recorded. -/
def push (collector : Collector) (node : Nat) : Collector :=
  match collector.stage with
  | .collecting module => { collector with contexts := collector.contexts.push ⟨module, node⟩ }
  | _ => collector

def endModule (collector : Collector) : Collector := { collector with stage := .ready }

def clear (_ : Collector) : Collector := empty

/-- Record what `visit` picks from each module; the signal is looked at before each. -/
def collectModules (visit : SyntaxTree → List Nat) :
    Collector → Signal → List ModuleSource → Option CollectingStop × Collector × Signal
  | collector, signal, [] => (none, { collector with stage := .ready }, signal)
  | collector, signal, module :: rest =>
    if signal.isCancelled then (some .cancelled, collector, signal)
    else
      let collected := (visit module.parsed.tree).foldl push (collector.beginModule module.name)
      collectModules visit collected.endModule signal.next rest

/-- Record what `visit` picks from each module of a snapshot. -/
def collect (collector : Collector) (visit : SyntaxTree → List Nat) (signal : Signal)
    (snapshot : Snapshot) : Option CollectingStop × Collector × Signal :=
  match collector.beginPass? with
  | none => (some .reused, collector, signal)
  | some collector => collector.collectModules visit signal snapshot.modules

end Collector

end VbaLint
