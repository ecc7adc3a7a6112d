import VbaLint.Editor.Server

/-!
# Editor sessions

A session holds the server, the tasks that were started and the messages sent so far. Tasks advance in
any order; if each notification is only taken in after the task of the one before has finished, they
advance one after another.
-/

namespace VbaLint.Editor

/-- What the editor tells the server. -/
inductive Notification where
  | initialized
  | opened (address text : String) (version : Int)
  /-- The texts that a document went through; the last one counts. -/
  | changed (address : String) (texts : List String) (version : Int)
  | saved (address : String)
  | closed (address : String)
  deriving DecidableEq, Repr

def Notification.task : Notification → Task
  | initialized => .loadConfig
  | opened address text version => .edit address text version
  | changed address texts version =>
    match texts.getLast? with
    | some text => .edit address text version
    | none => .finished
  | saved address => .checkKnown address
  | closed address => .close address

/-- A server at work. -/
structure Session where
  server : Server
  tasks : Array Task
  /-- The messages sent, the first first. -/
  sent : List Message

namespace Session

def new (server : Server) : Session := ⟨server, #[], []⟩

def start (session : Session) (notification : Notification) : Session :=
  { session with tasks := session.tasks.push notification.task }

/-- What a task does next, unless it has to wait. -/
def ready? (session : Session) (task : Nat) : Option Task :=
  (session.tasks[task]?).filter fun next ↦ !session.server.holdsBack next

def advance (session : Session) (task : Nat) (order : List Nat) : Session :=
  match session.ready? task with
  | none => session
  | some next =>
    let result := session.server.step order next
    { server := result.server
      tasks := session.tasks.setIfInBounds task result.next
      sent := session.sent ++ result.sent }

inductive Happening where
  | arrives (notification : Notification)
  /-- A task advances; where it lists documents they come in the given order. -/
  | advances (task : Nat) (order : List Nat)

def happen (session : Session) : Happening → Session
  | .arrives notification => session.start notification
  | .advances task order => session.advance task order

def run (session : Session) (happenings : List Happening) : Session := happenings.foldl happen session

end Session

namespace Server

/-- Do all steps of a task: the messages in order, and the server after them. Where a step lists documents
they come in the order given for it. -/
def finish (server : Server) (order : Task → List Nat) (task : Task) : List Message × Server :=
  if task.remainder = (0, 0) then ([], server)
  else
    let result := server.step (order task) task
    let (sent, server) := result.server.finish order result.next
    (result.sent ++ sent, server)
termination_by task.remainder
decreasing_by exact server.remainder_step _ _ ‹_›

def handle (server : Server) (notification : Notification) : List Message × Server :=
  server.finish (fun _ ↦ []) notification.task

end Server

structure Initialization where
  workspace : Option Workspace
  /-- The options, which may name the project. -/
  options : Json

def projectOption? : Json → Option String
  | .list [.text project] => some project
  | options => (options.field? "project").bind (·.text?)

def Initialization.server (initialization : Initialization) : Server :=
  .new .plain initialization.workspace ((projectOption? initialization.options).getD "VBAProject")

def serverDescription : Json :=
  .record
    [("capabilities", .record
        [("textDocumentSync", .record
          [("openClose", .boolean true), ("change", .natural 1),
            ("save", .record [("includeText", .boolean false)])])]),
      ("serverInfo", .record [("name", .text "vbinspect-lsp"), ("version", .text "0.1.0")])]

end VbaLint.Editor
