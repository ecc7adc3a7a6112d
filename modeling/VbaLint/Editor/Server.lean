import VbaLint.Editor.Diagnostic
import VbaLint.Host
import VbaLint.Pass.Engine

/-!
# The language server

A notification of the editor starts a task. A task goes step by step, and between its steps those of
other tasks may come; what the tasks share is the state of the server. A pass is made for the version
that its task drew, is given up if a later version was drawn before it began, and its diagnostics are
sent only if its result set is the one that its engine shows when they begin to be sent. They go out one
message after another, and one task at a time has the right to send them.
-/

namespace VbaLint.Editor

open Files

inductive Message where
  | log (level : Nat) (text : String)
  /-- All diagnostics of a document, for the version of its text. -/
  | diagnostics (address : String) (diagnostics : List Diagnostic) (version : Option Int)
  deriving DecidableEq, Repr

structure Workspace where
  root : String
  files : FileView

/-- What the tasks share. -/
structure Server where
  host : Host
  workspace : Option Workspace
  project : String
  documents : Documents
  /-- The engines installed so far, the one in use last. -/
  engines : Array (Engine Collector)
  cache : ParseCache
  /-- The highest version drawn so far. -/
  version : Nat
  /-- A task has the right to send diagnostics. -/
  isSending : Bool

/-- What a task that makes a pass has read. -/
structure PassPlan where
  version : Nat
  project : String
  /-- The number of the engine. -/
  engine : Nat
  documents : Documents

/-- What a task does next. -/
inductive Task where
  | loadConfig
  | loadDocuments
  | announce
  | edit (address text : String) (version : Int)
  | checkKnown (address : String)
  | close (address : String)
  | clear (address : String)
  | drawVersion
  | readEngine (version : Nat)
  | readDocuments (version : Nat) (project : String) (engine : Nat)
  | build (plan : PassPlan)
  | run (plan : PassPlan) (pass : PendingPass Collector)
  | complete (plan : PassPlan) (pass : CompletedPass Collector)
  | send (plan : PassPlan) (set : ResultSet)
  | deliver (messages : List Message)
  | finished

/-- How far a task is from its end: the stages before it, and the messages that it still has to send. -/
def Task.remainder : Task → Nat × Nat
  | finished => (0, 0)
  | deliver messages => (1, messages.length)
  | clear _ | announce => (1, 0)
  | send .. | close _ | loadDocuments => (2, 0)
  | complete .. | loadConfig => (3, 0)
  | run .. => (4, 0)
  | build _ => (5, 0)
  | readDocuments .. => (6, 0)
  | readEngine _ => (7, 0)
  | drawVersion => (8, 0)
  | edit .. | checkKnown _ => (9, 0)

/-- What a step leaves behind. -/
structure StepResult where
  sent : List Message
  server : Server
  next : Task

namespace Server

def new (host : Host) (workspace : Option Workspace) (project : String) : Server where
  host
  workspace
  project
  documents := []
  engines := #[.builtIn .default]
  cache := .empty
  version := 0
  isSending := false

def loadConfig (server : Server) : StepResult :=
  match server.workspace with
  | none => ⟨[], server, .announce⟩
  | some workspace =>
    match loadConfigBy server.host.parseConfig? workspace.files workspace.root with
    | .ok config =>
      let engine := Engine.builtIn (config.getD .default)
      ⟨[], { server with engines := server.engines.push engine }, .loadDocuments⟩
    | .error error =>
      let text := "Invalid configuration: " ++ error.message ++ ": " ++ server.host.configCause error
      ⟨[.log 1 text], server, .loadDocuments⟩

def documentOnDisk (component : LoadedComponent) : Document :=
  ⟨component.name, component.type, component.text, false, none⟩

/-- Take in a component on disk. A document that is known at its address stays, and a component whose path
has no address is left out. -/
def takeIn (host : Host) (documents : Documents) (component : LoadedComponent) : Documents :=
  match host.addressOf? component.path with
  | none => documents
  | some address => documents.putNew address (documentOnDisk component)

def loadDocuments (server : Server) : StepResult :=
  match server.workspace with
  | none => ⟨[], server, .announce⟩
  | some workspace =>
    match server.host.loadComponents? workspace.files workspace.root with
    | none =>
      let text := "Failed to load workspace: " ++ server.host.loadCause workspace.root
      ⟨[.log 1 text], server, .announce⟩
    | some components =>
      let documents := components.foldl (takeIn server.host) server.documents
      ⟨[], { server with documents }, .announce⟩

/-- The open document with a text; none if the address names no file with a component. -/
def openDocument? (host : Host) (address text : String) (version : Int) : Option Document := do
  let path ← host.pathOf? address
  let type ← ComponentType.ofPath? path
  return ⟨componentName path text, type, text, true, some version⟩

def edit (server : Server) (address text : String) (version : Int) : StepResult :=
  match openDocument? server.host address text version with
  | none => ⟨[], server, .finished⟩
  | some document =>
    ⟨[], { server with documents := server.documents.put address document }, .drawVersion⟩

/-- Begin a pass, unless a later version was drawn. -/
def build (server : Server) (plan : PassPlan) : StepResult :=
  match server.engines[plan.engine]? with
  | none => ⟨[], server, .finished⟩
  | some engine =>
    if server.version = plan.version then
      let (snapshot, cache) :=
        (plan.documents.assembly plan.project).buildCached plan.version server.cache
      let (pass, engine) := engine.begin snapshot
      ⟨[], { server with cache, engines := server.engines.set! plan.engine engine },
        .run plan pass⟩
    else ⟨[], server, .finished⟩

def run (server : Server) (plan : PassPlan) (pass : PendingPass Collector) : StepResult :=
  match server.engines[plan.engine]? with
  | none => ⟨[], server, .finished⟩
  | some engine =>
    let (pass, engine) := engine.run pass
    ⟨[], { server with engines := server.engines.set! plan.engine engine }, .complete plan pass⟩

def complete (server : Server) (plan : PassPlan) (pass : CompletedPass Collector) : StepResult :=
  match server.engines[plan.engine]? with
  | none => ⟨[], server, .finished⟩
  | some engine =>
    let (publication, engine) := engine.complete pass
    let server := { server with engines := server.engines.set! plan.engine engine }
    match publication with
    | .published set => ⟨[], server, .send plan set⟩
    | .stale .. | .cancelled => ⟨[], server, .finished⟩
    | .failed message =>
      ⟨[.log 1 ("Inspection pass failed: " ++ message)], server, .finished⟩

def faultMessage (fault : Fault) : Message :=
  .log 2 ("Inspection " ++ fault.inspection ++ " produced no results: " ++ fault.message)

/-- The messages for a result set: one for each fault, and one for each document that was open, in the
given order. -/
def messages (order : List Nat) (plan : PassPlan) (set : ResultSet) : List Message :=
  let opened := plan.documents.opened
  set.faults.map faultMessage ++ (opened.inOrder order).map fun located ↦
    .diagnostics located.1 (diagnosticsOf opened set located.1) located.2.version

/-- Begin to send the diagnostics of a result set, if its engine still shows that version. -/
def send (server : Server) (order : List Nat) (plan : PassPlan) (set : ResultSet) : StepResult :=
  match server.engines[plan.engine]? with
  | none => ⟨[], server, .finished⟩
  | some engine =>
    if engine.store.version? = some set.snapshotVersion then
      ⟨[], { server with isSending := true }, .deliver (messages order plan set)⟩
    else ⟨[], server, .finished⟩

/-- Send the next message; after the last one another task may send. -/
def deliver (server : Server) : List Message → StepResult
  | [] => ⟨[], { server with isSending := false }, .finished⟩
  | message :: rest => ⟨[message], server, .deliver rest⟩

/-- The task has to wait until another one has sent its messages. -/
def holdsBack (server : Server) : Task → Bool
  | .send .. => server.isSending
  | _ => false

/-- Do the next step of a task. Where documents are listed they come in the given order. -/
def step (server : Server) (order : List Nat) : Task → StepResult
  | .loadConfig => server.loadConfig
  | .loadDocuments => server.loadDocuments
  | .announce => ⟨[.log 3 "vbinspect LSP server initialized"], server, .finished⟩
  | .edit address text version => server.edit address text version
  | .checkKnown address =>
    ⟨[], server, if (server.documents.find? address).isSome then .drawVersion else .finished⟩
  | .close address =>
    ⟨[], { server with documents := server.documents.close address }, .clear address⟩
  | .clear address => ⟨[.diagnostics address [] none], server, .finished⟩
  | .drawVersion =>
    let version := server.version + 1
    ⟨[], { server with version }, .readEngine version⟩
  | .readEngine version =>
    ⟨[], server, .readDocuments version server.project (server.engines.size - 1)⟩
  | .readDocuments version project engine =>
    ⟨[], server, .build ⟨version, project, engine, server.documents.inOrder order⟩⟩
  | .build plan => server.build plan
  | .run plan pass => server.run plan pass
  | .complete plan pass => server.complete plan pass
  | .send plan set => server.send order plan set
  | .deliver messages => server.deliver messages
  | .finished => ⟨[], server, .finished⟩

/-- Each step brings a task nearer to its end. -/
theorem remainder_step (server : Server) (order : List Nat) (task : Task) (h : task.remainder ≠ (0, 0)) :
    Prod.Lex (· < ·) (· < ·) (server.step order task).next.remainder task.remainder := by
  cases task with
  | finished => exact absurd rfl h
  | deliver messages =>
    cases messages with
    | nil => exact .left _ _ Nat.zero_lt_one
    | cons message rest => exact .right _ (Nat.lt_succ_self _)
  | _ =>
    simp only [step, loadConfig, loadDocuments, edit, build, run, complete, send]
    repeat' split
    all_goals exact .left _ _ (by decide)

/-- No step of a task lets more be left to do. -/
theorem remainder_fst_step_le (server : Server) (order : List Nat) (task : Task) :
    (server.step order task).next.remainder.1 ≤ task.remainder.1 := by
  by_cases h : task.remainder = (0, 0)
  · cases task with
    | finished => exact Nat.le_refl 0
    | _ => cases h
  · rcases Prod.lex_def.1 (server.remainder_step order task h) with hlt | ⟨heq, -⟩
    · exact Nat.le_of_lt hlt
    · exact Nat.le_of_eq heq

end Server

end VbaLint.Editor
