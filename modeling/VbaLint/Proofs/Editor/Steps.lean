import VbaLint.Editor.Session

/-!
# The steps of tasks

What the next step of a task comes to: a pass is begun for the version drawn last, a pass that has run
is completed, the messages for a result set that is shown are sent one after another, and all other steps
leave the engines, the parse cache and the versions drawn before alone.
-/

namespace VbaLint.Editor

def PassPlan.assembly (plan : PassPlan) : Assembly := plan.documents.assembly plan.project

/-- A result set that begins to be sent, the plan of its pass, and the order of the messages. -/
structure Sending where
  plan : PassPlan
  set : ResultSet
  order : List Nat

def Sending.messages (sending : Sending) : List Message :=
  Server.messages sending.order sending.plan sending.set

/-- The message shows no diagnostics. -/
def Message.IsLog : Message → Prop
  | .log .. => True
  | .diagnostics .. => False

/-- The task has not drawn a version, or has nothing more to do with its pass. -/
def Task.IsIdle : Task → Prop
  | .loadDocuments | .announce | .clear _ | .drawVersion | .finished => True
  | _ => False

/-- The task has the right to send. -/
def Task.isDelivering : Task → Bool
  | .deliver _ => true
  | _ => false

/-- A task that has nothing in hand sends nothing. -/
theorem Task.IsIdle.isDelivering_eq_false {task : Task} (h : task.IsIdle) : task.isDelivering = false := by
  cases task <;> cases h <;> rfl

namespace Server

variable {server : Server} {order : List Nat} {task : Task} {plan : PassPlan}

/-- The plan of the pass that a task begins next. -/
def begun? (server : Server) : Task → Option PassPlan
  | .build plan =>
    if plan.engine < server.engines.size ∧ server.version = plan.version then some plan else none
  | _ => none

/-- The result set that a task begins to send next. -/
def sending? (server : Server) (order : List Nat) : Task → Option Sending
  | .send plan set =>
    if server.engines[plan.engine]?.bind (·.store.version?) = some set.snapshotVersion then
      some ⟨plan, set, order⟩
    else none
  | _ => none

/-- The server with one engine replaced by what it became. -/
def setEngine (server : Server) (number : Nat) (engine : Engine Collector) : Server :=
  { server with engines := server.engines.set! number engine }

def afterBuild (server : Server) (plan : PassPlan) (engine : Engine Collector) : Server :=
  let built := plan.assembly.buildCached plan.version server.cache
  { server.setEngine plan.engine (engine.begin built.1).2 with cache := built.2 }

def afterLoading (server : Server) (components : List LoadedComponent) : Documents :=
  components.foldl (takeIn server.host) server.documents

/-- What the step of a task may come to. -/
inductive StepsTo (server : Server) (order : List Nat) : Task → StepResult → Prop
  /-- Nothing changes. -/
  | rests {task next : Task} {sent : List Message} (begun : server.begun? task = none)
    (sending : server.sending? order task = none) (plain : task.isDelivering = false)
    (logs : ∀ message ∈ sent, message.IsLog) (idle : next.IsIdle) :
    StepsTo server order task ⟨sent, server, next⟩
  | installs (config : Config) :
    StepsTo server order .loadConfig
      ⟨[], { server with engines := server.engines.push (.builtIn config) }, .loadDocuments⟩
  | loads (components : List LoadedComponent) :
    StepsTo server order .loadDocuments
      ⟨[], { server with documents := server.afterLoading components }, .announce⟩
  | edits (address text : String) (version : Int) (document : Document) :
    StepsTo server order (.edit address text version)
      ⟨[], { server with documents := server.documents.put address document }, .drawVersion⟩
  | closes (address : String) :
    StepsTo server order (.close address)
      ⟨[], { server with documents := server.documents.close address }, .clear address⟩
  | clears (address : String) :
    StepsTo server order (.clear address) ⟨[.diagnostics address [] none], server, .finished⟩
  | draws :
    StepsTo server order .drawVersion
      ⟨[], { server with version := server.version + 1 }, .readEngine (server.version + 1)⟩
  | choosesEngine (version : Nat) :
    StepsTo server order (.readEngine version)
      ⟨[], server, .readDocuments version server.project (server.engines.size - 1)⟩
  | readsDocuments (version : Nat) (project : String) (engine : Nat) :
    StepsTo server order (.readDocuments version project engine)
      ⟨[], server, .build ⟨version, project, engine, server.documents.inOrder order⟩⟩
  | begins {plan : PassPlan} {engine : Engine Collector}
    (found : server.engines[plan.engine]? = some engine)
    (current : server.version = plan.version) :
    StepsTo server order (.build plan)
      ⟨[], server.afterBuild plan engine,
        .run plan (engine.begin (plan.assembly.buildCached plan.version server.cache).1).1⟩
  | runs {plan : PassPlan} {pass : PendingPass Collector} {engine : Engine Collector}
    (found : server.engines[plan.engine]? = some engine) :
    StepsTo server order (.run plan pass)
      ⟨[], server.setEngine plan.engine (engine.run pass).2, .complete plan (engine.run pass).1⟩
  | publishes {plan : PassPlan} {pass : CompletedPass Collector} {engine : Engine Collector}
    {set : ResultSet} (found : server.engines[plan.engine]? = some engine)
    (published : (engine.complete pass).1 = .published set) :
    StepsTo server order (.complete plan pass)
      ⟨[], server.setEngine plan.engine (engine.complete pass).2, .send plan set⟩
  | drops {plan : PassPlan} {pass : CompletedPass Collector} {engine : Engine Collector}
    {sent : List Message} (found : server.engines[plan.engine]? = some engine)
    (logs : ∀ message ∈ sent, message.IsLog) :
    StepsTo server order (.complete plan pass)
      ⟨sent, server.setEngine plan.engine (engine.complete pass).2, .finished⟩
  | claims {plan : PassPlan} {set : ResultSet}
    (sending : server.sending? order (.send plan set) = some ⟨plan, set, order⟩) :
    StepsTo server order (.send plan set)
      ⟨[], { server with isSending := true }, .deliver (messages order plan set)⟩
  | delivers (message : Message) (messages : List Message) :
    StepsTo server order (.deliver (message :: messages)) ⟨[message], server, .deliver messages⟩
  | releases :
    StepsTo server order (.deliver []) ⟨[], { server with isSending := false }, .finished⟩

/-- A pass is begun by the latest version only, on an engine that there is. -/
theorem begun?_eq_some (h : server.begun? task = some plan) :
    task = .build plan ∧ plan.engine < server.engines.size ∧ server.version = plan.version := by
  cases task with
  | build other =>
    obtain ⟨hcurrent, heq⟩ := Option.ite_none_right_eq_some.1 h
    cases heq
    exact ⟨rfl, hcurrent⟩
  | _ => cases h

/-- A task begins to send only what its engine shows. -/
theorem sending?_eq_some {sending : Sending} (h : server.sending? order task = some sending) :
    task = .send sending.plan sending.set ∧ sending.order = order ∧
      server.engines[sending.plan.engine]?.bind (·.store.version?) =
        some sending.set.snapshotVersion := by
  cases task with
  | send plan set =>
    obtain ⟨hshown, heq⟩ := Option.ite_none_right_eq_some.1 h
    cases heq
    exact ⟨rfl, rfl, hshown⟩
  | _ => cases h

/-- A task with the latest version begins its pass. -/
theorem build_of_current {engine : Engine Collector}
    (found : server.engines[plan.engine]? = some engine) (current : server.version = plan.version) :
    server.build plan =
      ⟨[], server.afterBuild plan engine,
        .run plan (engine.begin (plan.assembly.buildCached plan.version server.cache).1).1⟩ := by
  rw [build, found]
  exact if_pos current

theorem begun?_build {engine : Engine Collector}
    (found : server.engines[plan.engine]? = some engine) (current : server.version = plan.version) :
    server.begun? (.build plan) = some plan :=
  if_pos ⟨(Array.getElem?_eq_some_iff.1 found).1, current⟩

theorem stepsTo_build (server : Server) (order : List Nat) (plan : PassPlan) :
    server.StepsTo order (.build plan) (server.build plan) := by
  cases hengine : server.engines[plan.engine]? with
  | none =>
    have hsize : ¬ plan.engine < server.engines.size := by
      rw [Array.getElem?_eq_none_iff] at hengine
      omega
    rw [build, hengine]
    exact .rests (if_neg fun h ↦ hsize h.1) rfl rfl (List.forall_mem_nil _) trivial
  | some engine =>
    by_cases hversion : server.version = plan.version
    · rw [build_of_current hengine hversion]
      exact .begins hengine hversion
    · have hbuild : server.build plan = ⟨[], server, .finished⟩ := by
        rw [build, hengine]
        exact if_neg hversion
      rw [hbuild]
      exact .rests (if_neg fun h ↦ hversion h.2) rfl rfl (List.forall_mem_nil _) trivial

theorem stepsTo_complete (server : Server) (order : List Nat) (plan : PassPlan)
    (pass : CompletedPass Collector) :
    server.StepsTo order (.complete plan pass) (server.complete plan pass) := by
  unfold complete
  split
  · exact .rests rfl rfl rfl (List.forall_mem_nil _) trivial
  · next engine hengine =>
    dsimp only
    split
    · next set hpublished => exact .publishes hengine hpublished
    · exact .drops hengine (List.forall_mem_nil _)
    · exact .drops hengine (List.forall_mem_nil _)
    · exact .drops hengine (List.forall_mem_singleton.2 trivial)

theorem stepsTo_send (server : Server) (order : List Nat) (plan : PassPlan) (set : ResultSet) :
    server.StepsTo order (.send plan set) (server.send order plan set) := by
  by_cases hshown :
      server.engines[plan.engine]?.bind (·.store.version?) = some set.snapshotVersion
  · obtain ⟨engine, hengine, hversion⟩ := Option.bind_eq_some_iff.1 hshown
    have hsend : server.send order plan set =
        ⟨[], { server with isSending := true }, .deliver (messages order plan set)⟩ := by
      simp only [send, hengine, hversion, if_true]
    rw [hsend]
    exact .claims (if_pos hshown)
  · have hsend : server.send order plan set = ⟨[], server, .finished⟩ := by
      unfold send
      split
      · rfl
      · next engine hengine =>
        rw [hengine, Option.bind_some] at hshown
        exact if_neg hshown
    rw [hsend]
    exact .rests rfl (if_neg hshown) rfl (List.forall_mem_nil _) trivial

/-- The step of a task comes to one of the results that it may come to. -/
theorem stepsTo_step (server : Server) (order : List Nat) (task : Task) :
    server.StepsTo order task (server.step order task) := by
  cases task with
  | loadConfig =>
    simp only [step, loadConfig]
    split
    · exact .rests rfl rfl rfl (List.forall_mem_nil _) trivial
    split
    · exact .installs _
    · exact .rests rfl rfl rfl (List.forall_mem_singleton.2 trivial) trivial
  | loadDocuments =>
    simp only [step, loadDocuments]
    split
    · exact .rests rfl rfl rfl (List.forall_mem_nil _) trivial
    split
    · exact .rests rfl rfl rfl (List.forall_mem_singleton.2 trivial) trivial
    · exact .loads _
  | announce => exact .rests rfl rfl rfl (List.forall_mem_singleton.2 trivial) trivial
  | edit address text version =>
    simp only [step, edit]
    split
    · exact .rests rfl rfl rfl (List.forall_mem_nil _) trivial
    · exact .edits address text version _
  | checkKnown address =>
    simp only [step]
    split <;> exact .rests rfl rfl rfl (List.forall_mem_nil _) trivial
  | close address => exact .closes address
  | clear address => exact .clears address
  | drawVersion => exact .draws
  | readEngine version => exact .choosesEngine version
  | readDocuments version project engine => exact .readsDocuments version project engine
  | build plan => exact server.stepsTo_build order plan
  | run plan pass =>
    simp only [step, run]
    split
    · exact .rests rfl rfl rfl (List.forall_mem_nil _) trivial
    · next engine hengine => exact .runs hengine
  | complete plan pass => exact server.stepsTo_complete order plan pass
  | send plan set => exact server.stepsTo_send order plan set
  | deliver messages =>
    cases messages with
    | nil => exact .releases
    | cons message rest => exact .delivers message rest
  | finished => exact .rests rfl rfl rfl (List.forall_mem_nil _) trivial

end Server

end VbaLint.Editor
