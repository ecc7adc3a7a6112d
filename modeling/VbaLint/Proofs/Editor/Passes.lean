import VbaLint.Proofs.Editor.Plans
import VbaLint.Proofs.Pass.Configuration

/-!
# Tasks that advance by themselves

Several steps of one task, with none of another task between them, are taken at once. Where the task
begins a pass, the pass is made over what was read just before; a pass that was begun and not
cancelled publishes what a new runner finds, and that is sent.
-/

namespace VbaLint

theorem Store.admits_empty (set : ResultSet) : Store.empty.Admits set := by
  intro version h
  cases h

namespace Engine

/-- A pass that is not cancelled is published, unless a later version is shown. -/
theorem complete_run {engine : Engine Collector} {pass : PendingPass Collector}
    (hrules : pass.runner.SameRules (.ofCatalog .builtIn engine.config))
    (hclear : engine.isCancelled pass.token = false)
    (hadmits : engine.store.Admits (Runner.builtInSet engine.config pass.snapshot)) :
    ((engine.run pass).2.complete (engine.run pass).1).1 =
      .published (Runner.builtInSet engine.config pass.snapshot) := by
  have houtcome : (engine.run pass).1.outcome =
      .ok (Runner.builtInSet engine.config pass.snapshot) := by
    change (pass.runner.runPassIn [] pass.snapshot (engine.signal pass.token none)).1 = _
    rw [Engine.signal, hclear, hrules.actsAsNew.outcome_eq]
    exact Runner.runPass_builtIn engine.config pass.snapshot
  have hoffer := (engine.run pass).2.complete_offer (engine.run pass).1
  rw [houtcome, run, store_runIn] at hoffer
  exact hoffer.published_of_admits hadmits

/-- A pass that has just begun is not cancelled. -/
theorem isCancelled_begin (engine : Engine Collector) (snapshot : Snapshot) :
    (engine.begin snapshot).2.isCancelled (engine.begin snapshot).1.token = false := by
  have hsignal := engine.signal_begin snapshot none
  rw [signal] at hsignal
  split at hsignal
  · cases hsignal
  · next h => exact Bool.not_eq_true _ ▸ h

end Engine

namespace Editor

/-- Whatever order is asked for, the documents are listed each once. -/
theorem Documents.inOrder_perm (documents : Documents) (order : List Nat) :
    (documents.inOrder order).Perm documents := by
  have hschedule : (schedule order documents.length).Perm (List.range documents.length) := by
    refine (List.perm_ext_iff_of_nodup (nodup_schedule order _) List.nodup_range).2 ?_
    intro place
    rw [mem_schedule, List.mem_range]
  have hrange : (List.range documents.length).filterMap (documents[·]?) = documents := by
    calc
      _ = ((List.range documents.length).map (documents[·]?)).filterMap id := List.filterMap_map.symm
      _ = (documents.map some).filterMap id := by
        congr 1
        apply List.ext_getElem
        · simp
        · intro place hrange hmap
          simp at hmap
          simp [hmap]
      _ = documents := by simp
  rw [inOrder]
  exact (hschedule.filterMap _).trans (.of_eq hrange)

namespace Server

variable {server : Server} {plan : PassPlan} {engine : Engine Collector}

/-- A task that has the right to send if any has it does not have to wait. -/
theorem holdsBack_eq_false {task : Task} (h : server.isSending = task.isDelivering) :
    server.holdsBack task = false := by
  cases task with
  | send plan set => exact h
  | _ => rfl

/-- The right to send is taken and given back by the task that has it. -/
theorem isSending_step {task : Task} (h : server.isSending = task.isDelivering) (order : List Nat) :
    (server.step order task).server.isSending = (server.step order task).next.isDelivering := by
  have hstep := server.stepsTo_step order task
  generalize server.step order task = result at hstep ⊢
  cases hstep with
  | rests _ _ plain _ idle => exact h.trans (plain.trans idle.isDelivering_eq_false.symm)
  | _ => first | exact h | rfl

/-- Do some steps of a task, one after another. -/
def steps (server : Server) (order : Task → List Nat) (task : Task) : Nat → StepResult
  | 0 => ⟨[], server, task⟩
  | count + 1 =>
    let first := server.step (order task) task
    let rest := first.server.steps order first.next count
    { rest with sent := first.sent ++ rest.sent }

/-- The first step is done before the others. -/
theorem steps_succ (server : Server) (order : Task → List Nat) (task : Task) (count : Nat) :
    server.steps order task (count + 1) =
      let first := server.step (order task) task
      let rest := first.server.steps order first.next count
      { rest with sent := first.sent ++ rest.sent } := rfl

theorem steps_add (server : Server) (order : Task → List Nat) (task : Task) (count more : Nat) :
    server.steps order task (count + more) =
      let first := server.steps order task count
      let rest := first.server.steps order first.next more
      { rest with sent := first.sent ++ rest.sent } := by
  induction count generalizing server task with
  | zero =>
    rw [Nat.zero_add]
    rfl
  | succ count ih =>
    rw [Nat.succ_add, steps_succ, steps_succ]
    dsimp only
    rw [ih]
    simp

/-- The orders that are asked for in some steps of a task. -/
def ordersOf (server : Server) (order : Task → List Nat) (task : Task) : Nat → List (List Nat)
  | 0 => []
  | count + 1 =>
    let first := server.step (order task) task
    order task :: first.server.ordersOf order first.next count

theorem ordersOf_const (server : Server) (task : Task) (count : Nat) :
    server.ordersOf (fun _ ↦ []) task count = List.replicate count [] := by
  induction count generalizing server task with
  | zero => rfl
  | succ count ih => rw [ordersOf, ih, List.replicate_succ]

/-- Steps of a task may be done in two parts. -/
theorem steps_trans {order : Task → List Nat} {middle last : Server} {task next final : Task}
    {count more : Nat} {sent later : List Message}
    (h : server.steps order task count = ⟨sent, middle, next⟩)
    (h' : middle.steps order next more = ⟨later, last, final⟩) :
    server.steps order task (count + more) = ⟨sent ++ later, last, final⟩ := by
  rw [steps_add, h]
  dsimp only
  rw [h']

/-- For a result set of the built-in rules there is a message for each open document, and no other. -/
theorem length_messages_builtInSet (order : List Nat) (plan : PassPlan) (config : Config)
    (snapshot : Snapshot) :
    (messages order plan (Runner.builtInSet config snapshot)).length = plan.documents.opened.length := by
  rw [messages, Runner.faults_builtInSet, List.map_nil, List.nil_append, List.length_map]
  exact (Documents.inOrder_perm _ order).length_eq

/-- Messages are sent one with each step, and one step more is the last. -/
theorem steps_deliver (server : Server) (order : Task → List Nat) (messages : List Message) :
    server.steps order (.deliver messages) (messages.length + 1) =
      ⟨messages, { server with isSending := false }, .finished⟩ := by
  induction messages with
  | nil => rfl
  | cons message rest ih =>
    rw [List.length_cons, steps_succ, step, deliver]
    dsimp only
    rw [ih]
    rfl

/-- The order in which the documents are read for the next pass. -/
def readingOrder (server : Server) (order : Task → List Nat) : List Nat :=
  order (.readDocuments (server.version + 1) server.project (server.engines.size - 1))

def nextPlan (server : Server) (order : Task → List Nat) : PassPlan where
  version := server.version + 1
  project := server.project
  engine := server.engines.size - 1
  documents := server.documents.inOrder (server.readingOrder order)

/-- Four steps draw a version, choose the engine, read the documents and begin the pass. -/
theorem steps_drawVersion (hengine : server.engines[server.engines.size - 1]? = some engine)
    (order : Task → List Nat) :
    let drawn : Server := { server with version := server.version + 1 }
    let plan := server.nextPlan order
    server.steps order .drawVersion 4 =
      ⟨[], drawn.afterBuild plan engine,
        .run plan (engine.begin (plan.assembly.buildCached plan.version server.cache).1).1⟩ := by
  intro drawn plan
  have hbuild : drawn.build plan = ⟨[], drawn.afterBuild plan engine, _⟩ :=
    build_of_current hengine rfl
  change drawn.steps order (.build plan) 1 = _
  rw [steps_succ, step, hbuild]
  rfl

theorem run_of_found {pass : PendingPass Collector}
    (hengine : server.engines[plan.engine]? = some engine) :
    server.run plan pass =
      ⟨[], server.setEngine plan.engine (engine.run pass).2,
        .complete plan (engine.run pass).1⟩ := by
  rw [run, hengine]
  rfl

theorem complete_of_published {pass : CompletedPass Collector} {set : ResultSet}
    (hengine : server.engines[plan.engine]? = some engine)
    (hpublished : (engine.complete pass).1 = .published set) :
    server.complete plan pass =
      ⟨[], server.setEngine plan.engine (engine.complete pass).2, .send plan set⟩ := by
  rw [complete, hengine]
  dsimp only
  rw [hpublished]
  rfl

theorem send_of_shown {set : ResultSet} (hengine : server.engines[plan.engine]? = some engine)
    (hshown : engine.store.version? = some set.snapshotVersion) (order : List Nat) :
    server.send order plan set =
      ⟨[], { server with isSending := true }, .deliver (messages order plan set)⟩ := by
  rw [send, hengine]
  exact if_pos hshown

/-- A pass that is not cancelled begins to be sent, unless its engine shows a later version. -/
theorem steps_run {pass : PendingPass Collector}
    (hengine : server.engines[plan.engine]? = some engine)
    (hrules : pass.runner.SameRules (.ofCatalog .builtIn engine.config))
    (hclear : engine.isCancelled pass.token = false)
    (hadmits : engine.store.Admits (Runner.builtInSet engine.config pass.snapshot))
    (order : Task → List Nat) :
    let set := Runner.builtInSet engine.config pass.snapshot
    server.steps order (.run plan pass) 3 =
      ⟨[], { server.setEngine plan.engine ((engine.run pass).2.complete (engine.run pass).1).2 with
          isSending := true },
        .deliver (messages (order (.send plan set)) plan set)⟩ := by
  intro set
  let ran := engine.run pass
  let running := server.setEngine plan.engine ran.2
  have hran : running.engines[plan.engine]? = some ran.2 :=
    (getElem?_setEngine hengine _).trans (if_pos rfl)
  have hpublished : (ran.2.complete ran.1).1 = .published set :=
    Engine.complete_run hrules hclear hadmits
  let successor := (ran.2.complete ran.1).2
  let completed := running.setEngine plan.engine successor
  have hcompleted : completed.engines[plan.engine]? = some successor :=
    (getElem?_setEngine hran _).trans (if_pos rfl)
  have hshown : successor.store.version? = some set.snapshotVersion := by
    have hoffer := (ran.2.complete_offer ran.1).published_of_set?
      (congrArg Publication.set? hpublished)
    rw [hoffer.2.2]
    rfl
  calc
    server.steps order (.run plan pass) 3 = running.steps order (.complete plan ran.1) 2 := by
      rw [steps_succ, step, run_of_found hengine]
      rfl
    _ = completed.steps order (.send plan set) 1 := by
      rw [steps_succ, step, complete_of_published hran hpublished]
      rfl
    _ = ⟨[], { completed with isSending := true },
        .deliver (messages (order (.send plan set)) plan set)⟩ := by
      rw [steps_succ, step, send_of_shown hcompleted hshown]
      rfl
    _ = _ := by
      simp only [completed, running, setEngine, Array.set!_eq_setIfInBounds,
        Array.setIfInBounds_setIfInBounds]
      rfl

/-- A pass that was begun last is sent, unless its engine shows a later version. -/
theorem steps_run_begin {snapshot : Snapshot} (hkeeps : engine.KeepsRules .builtIn engine.config)
    (hengine : server.engines[plan.engine]? = some (engine.begin snapshot).2)
    (hadmits : engine.store.Admits (Runner.builtInSet engine.config snapshot))
    (order : Task → List Nat) :
    let set := Runner.builtInSet engine.config snapshot
    let sent := messages (order (.send plan set)) plan set
    server.steps order (.run plan (engine.begin snapshot).1) (3 + (sent.length + 1)) =
      ⟨sent, { server.setEngine plan.engine (engine.completion snapshot).2 with isSending := false },
        .finished⟩ := by
  intro set sent
  have hconfig := (engine.becomes_begin snapshot).config_eq
  have hrules := (hkeeps.begin snapshot).1
  rw [← hconfig] at hrules
  rw [← engine.store_begin snapshot, ← hconfig] at hadmits
  have hbegun : server.steps order (.run plan (engine.begin snapshot).1) 3 =
      ⟨[], { server.setEngine plan.engine (engine.completion snapshot).2 with isSending := true },
        .deliver sent⟩ := by
    have hran := steps_run hengine hrules (engine.isCancelled_begin snapshot) hadmits order
    rw [hconfig] at hran
    exact hran
  exact (steps_trans hbegun (steps_deliver _ order sent) :)

end Server

/-- No notification finds its task sending. -/
theorem Notification.isDelivering_task (notification : Notification) :
    notification.task.isDelivering = false := by
  cases notification with
  | changed address texts version =>
    rw [task]
    split <;> rfl
  | _ => rfl

/-- A task that has just been started does not have to wait. -/
theorem Notification.holdsBack_task (notification : Notification) (server : Server) :
    server.holdsBack notification.task = false := by
  cases notification with
  | changed address texts version =>
    rw [task]
    split <;> rfl
  | _ => rfl

namespace Session

/-- A task advances some times, and nothing else happens meanwhile. -/
def alone (number count : Nat) : List Happening := List.replicate count (.advances number [])

theorem ready?_eq_some {session : Session} {number : Nat} {task : Task}
    (htask : session.tasks[number]? = some task) (h : session.server.isSending = task.isDelivering) :
    session.ready? number = some task := by
  rw [ready?, htask, Option.filter_some, Server.holdsBack_eq_false h]
  rfl

/-- A task advances, and nothing else happens meanwhile. -/
theorem run_advances {session : Session} {number : Nat} {task : Task}
    (htask : session.tasks[number]? = some task) (h : session.server.isSending = task.isDelivering)
    (order : Task → List Nat) (count : Nat) :
    session.run ((session.server.ordersOf order task count).map (.advances number)) =
      let result := session.server.steps order task count
      { server := result.server
        tasks := session.tasks.setIfInBounds number result.next
        sent := session.sent ++ result.sent } := by
  have hlt : number < session.tasks.size := (Array.getElem?_eq_some_iff.1 htask).1
  induction count generalizing session task with
  | zero =>
    have htasks : session.tasks.setIfInBounds number task = session.tasks := by
      obtain ⟨_, rfl⟩ := Array.getElem?_eq_some_iff.1 htask
      simp [Array.setIfInBounds]
    simp only [Server.steps, htasks, List.append_nil]
    rfl
  | succ count ih =>
    have hready := ready?_eq_some htask h
    have hserver := server_advance hready (order task)
    have hnext := getElem?_advance hready (order task)
    have hsize : number < (session.advance number (order task)).tasks.size := by
      rw [advance_eq hready]
      simpa using hlt
    have hsending : (session.advance number (order task)).server.isSending =
        (session.server.step (order task) task).next.isDelivering := by
      rw [hserver]
      exact Server.isSending_step h (order task)
    have hrest := ih hnext hsending hsize
    rw [hserver] at hrest
    refine hrest.trans ?_
    rw [advance_eq hready, Server.steps_succ]
    simp

/-- A task that advances by itself takes several steps at once. -/
theorem run_alone {session : Session} {number : Nat} {task : Task}
    (htask : session.tasks[number]? = some task) (h : session.server.isSending = task.isDelivering)
    (count : Nat) :
    session.run (alone number count) =
      let result := session.server.steps (fun _ ↦ []) task count
      { server := result.server
        tasks := session.tasks.setIfInBounds number result.next
        sent := session.sent ++ result.sent } := by
  have hrun := run_advances htask h (fun _ ↦ []) count
  rwa [Server.ordersOf_const, List.map_replicate] at hrun

theorem setIfInBounds_push_size {α : Type} (xs : Array α) (x y : α) :
    (xs.push x).setIfInBounds xs.size y = xs.push y := by
  ext i hi hi'
  · simp
  · grind

/-- A task that has just been started does its first step. -/
theorem advance_start (session : Session) (notification : Notification) (order : List Nat) :
    (session.start notification).advance session.tasks.size order =
      let result := session.server.step order notification.task
      { server := result.server
        tasks := session.tasks.push result.next
        sent := session.sent ++ result.sent } := by
  have htask : (session.start notification).tasks[session.tasks.size]? = some notification.task :=
    Array.getElem?_push_size
  have hready : (session.start notification).ready? session.tasks.size = some notification.task := by
    rw [ready?, htask, Option.filter_some, notification.holdsBack_task]
    rfl
  rw [advance_eq hready, start, setIfInBounds_push_size]

section Beginning

variable {session : Session} {tasks : Array Task} {engine : Engine Collector}

/-- The last task draws a version and begins its pass. -/
theorem run_drawing (htasks : session.tasks = tasks.push .drawVersion)
    (hidle : session.server.isSending = false)
    (hengine : session.server.engines[session.server.engines.size - 1]? = some engine) :
    let drawn : Server := { session.server with version := session.server.version + 1 }
    let plan := session.server.nextPlan fun _ ↦ []
    let built := plan.assembly.buildCached plan.version drawn.cache
    session.run (alone tasks.size 4) =
      { server := drawn.afterBuild plan engine
        tasks := tasks.push (.run plan (engine.begin built.1).1)
        sent := session.sent } := by
  intro drawn plan built
  have htask : session.tasks[tasks.size]? = some .drawVersion := by
    rw [htasks]
    exact Array.getElem?_push_size
  rw [run_alone htask hidle, Server.steps_drawVersion hengine, htasks]
  simp only [setIfInBounds_push_size, List.append_nil]
  rfl

/-- A document is opened, which starts the task of the given number, and its pass is begun. -/
def opening (number : Nat) (address text : String) (version : Int) : List Happening :=
  .arrives (.opened address text version) :: alone number 1 ++ alone number 4

/-- A document is saved, which starts the task of the given number, and a pass is begun. -/
def saving (number : Nat) (address : String) : List Happening :=
  .arrives (.saved address) :: alone number 1 ++ alone number 4

variable {address text : String} {version : Int} {document : Document}

/-- When nothing is being sent, a text that is opened gets its pass begun. -/
theorem run_opening (hidle : session.server.isSending = false)
    (hdocument : Server.openDocument? session.server.host address text version = some document)
    (hengine : session.server.engines[session.server.engines.size - 1]? = some engine) :
    let documents := session.server.documents.put address document
    let drawn : Server := { session.server with documents, version := session.server.version + 1 }
    let plan := Server.nextPlan { session.server with documents } fun _ ↦ []
    let built := plan.assembly.buildCached plan.version drawn.cache
    session.run (opening session.tasks.size address text version) =
      { server := drawn.afterBuild plan engine
        tasks := session.tasks.push (.run plan (engine.begin built.1).1)
        sent := session.sent } := by
  intro documents drawn plan built
  let opened : Session :=
    ⟨{ session.server with documents }, session.tasks.push .drawVersion, session.sent⟩
  have hopened : session.run
      (.arrives (.opened address text version) :: alone session.tasks.size 1) = opened := by
    change (session.start (.opened address text version)).advance session.tasks.size [] = opened
    rw [advance_start, Notification.task, Server.step, Server.edit, hdocument]
    simp only [opened, documents, List.append_nil]
  have hengine' : opened.server.engines[opened.server.engines.size - 1]? = some engine := hengine
  rw [opening, run_append, hopened]
  exact run_drawing rfl hidle hengine'

/-- When nothing is being sent, a document that is saved gets its pass begun. -/
theorem run_saving (hidle : session.server.isSending = false)
    (hknown : (session.server.documents.find? address).isSome = true)
    (hengine : session.server.engines[session.server.engines.size - 1]? = some engine) :
    let drawn : Server := { session.server with version := session.server.version + 1 }
    let plan := session.server.nextPlan fun _ ↦ []
    let built := plan.assembly.buildCached plan.version drawn.cache
    session.run (saving session.tasks.size address) =
      { server := drawn.afterBuild plan engine
        tasks := session.tasks.push (.run plan (engine.begin built.1).1)
        sent := session.sent } := by
  intro drawn plan built
  let saved : Session := ⟨session.server, session.tasks.push .drawVersion, session.sent⟩
  have hsaved : session.run
      (.arrives (.saved address) :: alone session.tasks.size 1) = saved := by
    change (session.start (.saved address)).advance session.tasks.size [] = saved
    rw [advance_start, Notification.task, Server.step, hknown]
    simp only [saved, if_true, List.append_nil]
  rw [saving, run_append, hsaved]
  have hengine' : saved.server.engines[saved.server.engines.size - 1]? = some engine := hengine
  exact run_drawing rfl hidle hengine'

/-- A pass that was the last to begin goes to its end and is sent, unless its engine shows a later
version. -/
theorem run_begun {number : Nat} {plan : PassPlan} {snapshot : Snapshot}
    (hidle : session.server.isSending = false)
    (htask : session.tasks[number]? = some (.run plan (engine.begin snapshot).1))
    (hkeeps : engine.KeepsRules .builtIn engine.config)
    (hengine : session.server.engines[plan.engine]? = some (engine.begin snapshot).2)
    (hadmits : engine.store.Admits (Runner.builtInSet engine.config snapshot)) {count : Nat}
    (hcount : plan.documents.opened.length = count) :
    ∃ successor, session.run (alone number (3 + (count + 1))) =
      { server := { session.server.setEngine plan.engine successor with isSending := false }
        tasks := session.tasks.setIfInBounds number .finished
        sent := session.sent ++
          Server.messages [] plan (Runner.builtInSet engine.config snapshot) } := by
  refine ⟨(engine.completion snapshot).2, ?_⟩
  rw [← hcount, ← Server.length_messages_builtInSet [] plan engine.config snapshot, run_alone htask hidle,
    Server.steps_run_begin hkeeps hengine hadmits fun _ ↦ []]

end Beginning

variable {address text : String} {version : Int} {document : Document}

/-- A document that is opened first of all is alone in its pass. -/
theorem run_opening_new (host : Host) (workspace : Option Workspace) (project : String)
    (hdocument : Server.openDocument? host address text version = some document) :
    let documents : Documents := [(address, document)]
    let built := (documents.assembly project).buildCached 1 .empty
    let pass := (Engine.builtIn .default).begin built.1
    (Session.new (.new host workspace project)).run (opening 0 address text version) =
      { server :=
          { host, workspace, project, documents, engines := #[pass.2], cache := built.2, version := 1,
            isSending := false }
        tasks := #[.run ⟨1, project, 0, documents⟩ pass.1]
        sent := [] } := by
  let session : Session := .new (.new host workspace project)
  have hengine : session.server.engines[session.server.engines.size - 1]? =
      some (.builtIn .default) := rfl
  exact run_opening rfl hdocument hengine

end Session

end Editor

end VbaLint
