import VbaLint.Proofs.Editor.Passes

/-!
# Notifications taken in one at a time

A notification is taken in by a turn of its own if its task goes to its end before anything else
happens. What a turn comes to follows from the state of the server before it: a turn that draws a
version sends what a new runner finds in the documents then known.
-/

namespace VbaLint

namespace Engine

variable {engine : Engine Collector}

/-- A whole pass keeps the rules of the engine. -/
theorem keepsRules_completion (hkeeps : engine.KeepsRules .builtIn engine.config)
    (snapshot : Snapshot) : (engine.completion snapshot).2.KeepsRules .builtIn engine.config := by
  rw [← runAll_snd]
  exact hkeeps.runAll snapshot

/-- An engine that is not ahead of a snapshot shows the set of its pass in the end. -/
theorem store_completion (hkeeps : engine.KeepsRules .builtIn engine.config) {snapshot : Snapshot}
    (hadmits : engine.store.Admits (Runner.builtInSet engine.config snapshot)) :
    (engine.completion snapshot).2.store = ⟨some (Runner.builtInSet engine.config snapshot)⟩ := by
  have hconfig := (engine.becomes_begin snapshot).config_eq
  have hrules := (hkeeps.begin snapshot).1
  rw [← hconfig] at hrules
  rw [← engine.store_begin snapshot, ← hconfig] at hadmits
  have hpublished := complete_run hrules (engine.isCancelled_begin snapshot) hadmits
  have hoffer := (((engine.begin snapshot).2.run (engine.begin snapshot).1).2.complete_offer
    (engine.passOver snapshot)).published_of_set? (congrArg Publication.set? hpublished)
  rw [← hconfig]
  exact hoffer.2.2

end Engine

namespace Editor

open Files

theorem Task.eq_finished_of_remainder {task : Task} (h : task.remainder = (0, 0)) :
    task = .finished := by
  cases task with
  | finished => rfl
  | _ => cases h

namespace Server

variable {server : Server} {order : Task → List Nat} {task : Task}

@[simp]
theorem finish_finished (server : Server) (order : Task → List Nat) :
    server.finish order .finished = ([], server) := by
  rw [finish]
  exact if_pos rfl

/-- A task is done by its first step and then the rest. -/
theorem finish_eq (h : task.remainder ≠ (0, 0)) :
    server.finish order task =
      let first := server.step (order task) task
      let rest := first.server.finish order first.next
      (first.sent ++ rest.1, rest.2) := by
  rw [finish]
  exact if_neg h

theorem steps_finished (server : Server) (order : Task → List Nat) (count : Nat) :
    server.steps order .finished count = ⟨[], server, .finished⟩ := by
  induction count with
  | zero => rfl
  | succ count ih =>
    rw [steps_succ, step]
    dsimp only
    rw [ih]
    rfl

/-- A task is done by some of its steps and then the rest. -/
theorem finish_eq_of_steps (server : Server) (order : Task → List Nat) (task : Task) (count : Nat) :
    server.finish order task =
      let first := server.steps order task count
      let rest := first.server.finish order first.next
      (first.sent ++ rest.1, rest.2) := by
  induction count generalizing server task with
  | zero => rfl
  | succ count ih =>
    by_cases hleft : task.remainder = (0, 0)
    · cases Task.eq_finished_of_remainder hleft
      rw [steps_finished]
      rfl
    · rw [finish_eq hleft, steps_succ]
      dsimp only
      rw [ih]
      simp

theorem finish_of_steps {count : Nat} {sent : List Message} {last : Server}
    (h : server.steps order task count = ⟨sent, last, .finished⟩) :
    server.finish order task = (sent, last) := by
  rw [finish_eq_of_steps server order task count, h]
  simp

/-- Every task comes to its end. -/
theorem exists_steps_finish (server : Server) (order : Task → List Nat) (task : Task) :
    ∃ count, server.steps order task count =
      ⟨(server.finish order task).1, (server.finish order task).2, .finished⟩ := by
  fun_induction finish server order task with
  | case1 server task h =>
    cases Task.eq_finished_of_remainder h
    exact ⟨0, rfl⟩
  | case2 server task h first sent last heq ih =>
    obtain ⟨count, hcount⟩ := ih
    refine ⟨count + 1, ?_⟩
    rw [steps_succ]
    dsimp only
    rw [hcount, heq]

theorem workspace_step (server : Server) (order : List Nat) (task : Task) :
    (server.step order task).server.workspace = server.workspace := by
  have hstep := server.stepsTo_step order task
  generalize server.step order task = result at hstep ⊢
  cases hstep <;> rfl

theorem workspace_finish (server : Server) (order : Task → List Nat) (task : Task) :
    (server.finish order task).2.workspace = server.workspace := by
  fun_induction finish server order task with
  | case1 => rfl
  | case2 server task hleft first sent last heq ih =>
    rw [heq] at ih
    exact ih.trans (server.workspace_step _ task)

/-- A task that draws a version makes its pass with the engine in use and sends what it finds. -/
theorem finish_drawVersion {engine : Engine Collector}
    (hengine : server.engines[server.engines.size - 1]? = some engine)
    (hkeeps : engine.KeepsRules .builtIn engine.config)
    (hshown : ∀ version, engine.store.version? = some version → version ≤ server.version)
    (order : Task → List Nat) :
    let plan := server.nextPlan order
    let built := plan.assembly.buildCached plan.version server.cache
    let set := Runner.builtInSet engine.config built.1
    server.finish order .drawVersion =
      (messages (order (.send plan set)) plan set,
        { server.setEngine plan.engine (engine.completion built.1).2 with
          version := plan.version
          cache := built.2
          isSending := false }) := by
  intro plan built set
  let drawn : Server := { server with version := server.version + 1 }
  have hfound : drawn.engines[plan.engine]? = some engine := hengine
  have hlast : (drawn.afterBuild plan engine).engines[plan.engine]? =
      some (engine.begin built.1).2 :=
    (getElem?_setEngine hfound _).trans (if_pos rfl)
  have hadmits : engine.store.Admits set :=
    fun version hversion ↦ Nat.le_succ_of_le (hshown version hversion)
  have hran := steps_run_begin hkeeps hlast hadmits order
  rw [finish_of_steps (steps_trans (steps_drawVersion hengine order) hran)]
  simp only [afterBuild, setEngine, drawn, Array.set!_eq_setIfInBounds,
    Array.setIfInBounds_setIfInBounds, List.nil_append]
  rfl

end Server

/-- A notification that is taken in by itself, with what is on disk meanwhile and the order in which
the documents happen to be listed for each step. -/
structure Turn where
  notification : Notification
  files : FileView
  order : Task → List Nat

namespace Server

variable {server : Server}

/-- The server with other files on disk. -/
def seeing (server : Server) (files : FileView) : Server :=
  { server with workspace := server.workspace.map fun workspace ↦ { workspace with files } }

theorem seeing_eq_self {files : FileView}
    (h : ∀ workspace, server.workspace = some workspace → workspace.files = files) :
    server.seeing files = server := by
  obtain ⟨host, workspace, project, documents, engines, cache, version, isSending⟩ := server
  cases workspace with
  | none => rfl
  | some workspace =>
    cases h workspace rfl
    rfl

/-- What is sent in a turn, and the server after it. -/
def take (server : Server) (turn : Turn) : List Message × Server :=
  (server.seeing turn.files).finish turn.order turn.notification.task

/-- What is sent for some notifications that are handled one after another, and the server after them. -/
def handleAll (server : Server) : List Notification → List Message × Server
  | [] => ([], server)
  | notification :: rest =>
    let (sent, server) := server.handle notification
    let (later, server) := server.handleAll rest
    (sent ++ later, server)

end Server

namespace Session

def take (session : Session) (turn : Turn) : Session :=
  let (sent, server) := session.server.take turn
  { server, tasks := session.tasks.push .finished, sent := session.sent ++ sent }

def takeAll (session : Session) (turns : List Turn) : Session := turns.foldl take session

/-- The last turn is taken after all others. -/
theorem takeAll_concat (session : Session) (turns : List Turn) (turn : Turn) :
    session.takeAll (turns ++ [turn]) = (session.takeAll turns).take turn :=
  List.foldl_append

/-- A turn is a run in which the task of its notification goes to its end by itself. -/
theorem exists_run_eq_take {session : Session} (hidle : session.server.isSending = false) (turn : Turn) :
    ∃ orders : List (List Nat),
      let seeing : Session := { session with server := session.server.seeing turn.files }
      seeing.run (.arrives turn.notification :: orders.map (.advances session.tasks.size)) =
        session.take turn := by
  let seeing : Session := { session with server := session.server.seeing turn.files }
  have htask : (seeing.start turn.notification).tasks[session.tasks.size]? =
      some turn.notification.task := Array.getElem?_push_size
  obtain ⟨count, hcount⟩ := seeing.server.exists_steps_finish turn.order turn.notification.task
  have hrun := run_advances htask (hidle.trans turn.notification.isDelivering_task.symm)
    turn.order count
  rw [show (seeing.start turn.notification).server.steps turn.order turn.notification.task count = _
    from hcount] at hrun
  have htasks : (seeing.start turn.notification).tasks.setIfInBounds session.tasks.size .finished =
      session.tasks.push .finished := setIfInBounds_push_size _ _ _
  dsimp only at hrun
  rw [htasks] at hrun
  exact ⟨_, hrun⟩

/-- What is handled one after another is taken in by turns that list the documents as they are kept. -/
theorem takeAll_handling {session : Session} {files : FileView}
    (hfiles : ∀ workspace, session.server.workspace = some workspace → workspace.files = files)
    (notifications : List Notification) :
    let after := session.takeAll (notifications.map (⟨·, files, fun _ ↦ []⟩))
    after.sent = session.sent ++ (session.server.handleAll notifications).1 ∧
      after.server = (session.server.handleAll notifications).2 := by
  induction notifications generalizing session with
  | nil => exact ⟨(List.append_nil _).symm, rfl⟩
  | cons notification rest ih =>
    let taken := session.take ⟨notification, files, fun _ ↦ []⟩
    have htaken : taken =
        { server := (session.server.handle notification).2
          tasks := session.tasks.push .finished
          sent := session.sent ++ (session.server.handle notification).1 } := by
      simp only [taken, take, Server.take, Server.seeing_eq_self hfiles]
      rfl
    have hkept : ∀ workspace, taken.server.workspace = some workspace → workspace.files = files := by
      intro workspace hworkspace
      rw [htaken] at hworkspace
      exact hfiles workspace ((Server.workspace_finish ..).symm.trans hworkspace)
    obtain ⟨hsent, hserver⟩ := ih hkept
    rw [htaken] at hsent hserver
    rw [Server.handleAll, List.map_cons, takeAll, List.foldl_cons, show session.take _ = _ from htaken]
    exact ⟨hsent.trans (List.append_assoc ..), hserver⟩

end Session

end Editor

end VbaLint
