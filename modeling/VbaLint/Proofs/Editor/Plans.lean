import Mathlib.Data.List.Pairwise
import VbaLint.Proofs.Editor.Growth
import VbaLint.Proofs.Pass.Recycling
import VbaLint.Proofs.Project.Caching
import VbaLint.Proofs.Rules.Locating

/-!
# The passes that a session begins

Passes are begun one at a time, each for the version that was drawn last. The plans of the passes begun
so far are therefore in order of their versions, and their engines never go back; this record also
determines the parse cache, and each pass is followed from it to the result set that is sent.
-/

namespace VbaLint

/-- What a pass with built-in rules comes to: it is cancelled or finds what a new runner finds. -/
theorem Engine.outcome_run {engine : Engine Collector} {config : Config}
    {pass : PendingPass Collector} (h : pass.runner.SameRules (.ofCatalog .builtIn config)) :
    (engine.run pass).1.outcome = .error .cancelled ∨
      (engine.run pass).1.outcome = .ok (Runner.builtInSet config pass.snapshot) := by
  have houtcome : (engine.run pass).1.outcome =
      (pass.runner.runPassIn [] pass.snapshot (engine.signal pass.token none)).1 := rfl
  rw [houtcome]
  by_cases hset : engine.isCancelled pass.token
  · left
    rw [Engine.signal, if_pos hset, Runner.runPassIn_of_isCancelled rfl]
  · right
    rw [Engine.signal, if_neg hset, h.actsAsNew.outcome_eq]
    exact Runner.runPass_builtIn config pass.snapshot

/-- An engine keeps its rules under its own configuration. -/
theorem Engine.KeepsRules.itself {σ : Type} {engine : Engine σ} {catalog : Catalog σ}
    {config : Config} (h : engine.KeepsRules catalog config) :
    engine.KeepsRules catalog engine.config := by
  rw [h.config_eq]
  exact h

namespace Editor

/-! ## Plans -/

namespace PassPlan

def call (plan : PassPlan) : CacheCall := .build plan.assembly plan.version

/-- The pass of the plan was begun over the snapshot, where `log` holds the plans of the passes begun
so far: the cache still held what the plan before it had asked for. -/
def BegunOver (plan : PassPlan) (log : List PassPlan) (snapshot : Snapshot) : Prop :=
  ∃ earlier, earlier ++ [plan] <+: log ∧
    snapshot = (plan.assembly.buildCached plan.version (.after (earlier.map call))).1

variable {plan : PassPlan} {log : List PassPlan} {snapshot : Snapshot}

/-- A pass that was begun has been begun ever since. -/
theorem BegunOver.append (h : plan.BegunOver log snapshot) (more : List PassPlan) :
    plan.BegunOver (log ++ more) snapshot := by
  obtain ⟨earlier, hprefix, hsnapshot⟩ := h
  exact ⟨earlier, hprefix.trans (List.prefix_append log more), hsnapshot⟩

theorem BegunOver.mem (h : plan.BegunOver log snapshot) : plan ∈ log := by
  obtain ⟨earlier, hprefix, -⟩ := h
  exact hprefix.subset (List.mem_append_right earlier List.mem_cons_self)

/-- The version of a pass is that of its snapshot. -/
theorem BegunOver.version_eq (h : plan.BegunOver log snapshot) :
    snapshot.version = plan.version := by
  obtain ⟨earlier, -, rfl⟩ := h
  rfl

/-- If digests tell the texts of all passes apart, a pass is made over the texts of its plan. -/
theorem BegunOver.eq_snapshot (h : plan.BegunOver log snapshot)
    (happart : DigestsTellApart (CacheCall.allSources (log.map call))) :
    snapshot = plan.assembly.snapshot plan.version := by
  obtain ⟨earlier, ⟨later, rfl⟩, rfl⟩ := h
  apply Assembly.buildCached_after
  apply happart.mono
  intro source hsource
  rw [List.map_append, List.map_append, CacheCall.allSources, List.flatMap_append]
  exact List.mem_append_left _ hsource

end PassPlan

/-! ## What a server records -/

/-- The plans of the passes begun so far, the first first, fit the server. -/
structure Server.Records (server : Server) (log : List PassPlan) : Prop where
  /-- A later pass has a later version, and its engine was not replaced before. -/
  ordered : log.Pairwise fun earlier later ↦
    earlier.version < later.version ∧ earlier.engine ≤ later.engine
  version_le {plan : PassPlan} : plan ∈ log → plan.version ≤ server.version
  engine_lt {plan : PassPlan} : plan ∈ log → plan.engine < server.engines.size
  hasEngine : 0 < server.engines.size
  keepsRules {number : Nat} {engine : Engine Collector} :
    server.engines[number]? = some engine → engine.KeepsRules .builtIn engine.config
  cache_eq : server.cache = .after (log.map PassPlan.call)

def Task.drawn? : Task → Option Nat
  | .readEngine version | .readDocuments version _ _ => some version
  | .build plan => some plan.version
  | _ => none

/-- The version that the task drew and the engine that it chose, until it begins its pass. -/
def Task.chosen? : Task → Option (Nat × Nat)
  | .readDocuments version _ engine => some (version, engine)
  | .build plan => some (plan.version, plan.engine)
  | _ => none

/-- What a task that has begun its pass carries along fits the server and its record. -/
def Task.Carries (server : Server) (log : List PassPlan) : Task → Prop
  | .run plan pass =>
    ∃ engine, server.engines[plan.engine]? = some engine ∧
      pass.runner.SameRules (.ofCatalog .builtIn engine.config) ∧
      plan.BegunOver log pass.snapshot
  | .complete plan pass =>
    ∃ engine, server.engines[plan.engine]? = some engine ∧
      pass.runner.SameRules (.ofCatalog .builtIn engine.config) ∧
      ∃ snapshot, plan.BegunOver log snapshot ∧
        ∀ set, pass.outcome = .ok set → set = Runner.builtInSet engine.config snapshot
  | .send plan set =>
    ∃ engine, server.engines[plan.engine]? = some engine ∧
      ∃ snapshot, plan.BegunOver log snapshot ∧ set = Runner.builtInSet engine.config snapshot
  | _ => True

/-- What a task knows fits the server and its record. -/
structure Task.Fits (task : Task) (server : Server) (log : List PassPlan) : Prop where
  /-- No pass was begun for a version that is drawn for a pass still to begin. -/
  drawn {version : Nat} : task.drawn? = some version →
    version ≤ server.version ∧ ∀ plan ∈ log, plan.version ≠ version
  /-- An engine is chosen after the version is drawn, so passes of lower versions do not have later
  ones. -/
  chosen {version engine : Nat} : task.chosen? = some (version, engine) →
    engine < server.engines.size ∧ ∀ plan ∈ log, plan.version < version → plan.engine ≤ engine
  carries : task.Carries server log

theorem Task.drawn?_of_chosen? {task : Task} {version engine : Nat}
    (h : task.chosen? = some (version, engine)) : task.drawn? = some version := by
  cases task <;> cases h <;> rfl

variable {server later : Server} {log more : List PassPlan} {task : Task}

/-- What a task has in hand stays good when the server goes on. -/
theorem Task.Carries.grow (h : task.Carries server log) (hgrows : server.Grows later)
    (more : List PassPlan) : task.Carries later (log ++ more) := by
  cases task with
  | run plan pass =>
    obtain ⟨engine, hengine, hrules, hbegun⟩ := h
    obtain ⟨successor, hsuccessor, hbecomes⟩ := hgrows.engine hengine
    exact ⟨successor, hsuccessor, hbecomes.config_eq ▸ hrules, hbegun.append more⟩
  | complete plan pass =>
    obtain ⟨engine, hengine, hrules, snapshot, hbegun, hset⟩ := h
    obtain ⟨successor, hsuccessor, hbecomes⟩ := hgrows.engine hengine
    rw [← hbecomes.config_eq] at hrules hset
    exact ⟨successor, hsuccessor, hrules, snapshot, hbegun.append more, hset⟩
  | send plan set =>
    obtain ⟨engine, hengine, snapshot, hbegun, hset⟩ := h
    obtain ⟨successor, hsuccessor, hbecomes⟩ := hgrows.engine hengine
    rw [← hbecomes.config_eq] at hset
    exact ⟨successor, hsuccessor, snapshot, hbegun.append more, hset⟩
  | _ => trivial

/-- A task that does nothing still fits after the server grew, if the passes that were begun meanwhile
have later versions than its own. -/
theorem Task.Fits.grow (h : task.Fits server log) (hgrows : server.Grows later)
    (hmore : ∀ version, task.drawn? = some version → ∀ plan ∈ more, version < plan.version) :
    task.Fits later (log ++ more) := by
  refine ⟨?_, ?_, h.carries.grow hgrows more⟩
  · intro version hdrawn
    obtain ⟨hle, hlog⟩ := h.drawn hdrawn
    refine ⟨Nat.le_trans hle hgrows.version_le, ?_⟩
    intro plan hplan
    rcases List.mem_append.1 hplan with hold | hnew
    · exact hlog plan hold
    · have := hmore version hdrawn plan hnew
      omega
  · intro version engine hchosen
    obtain ⟨hlt, hlog⟩ := h.chosen hchosen
    refine ⟨hgrows.lt_size hlt, ?_⟩
    intro plan hplan hbefore
    rcases List.mem_append.1 hplan with hold | hnew
    · exact hlog plan hold hbefore
    · have := hmore version (Task.drawn?_of_chosen? hchosen) plan hnew
      omega

/-! ## Steps -/

namespace Server.Records

/-- Of two passes one was begun before the other. -/
theorem before_or_after (h : server.Records log) {plan other : PassPlan} (hplan : plan ∈ log)
    (hother : other ∈ log) (hne : plan ≠ other) :
    (plan.version < other.version ∧ plan.engine ≤ other.engine) ∨
      (other.version < plan.version ∧ other.engine ≤ plan.engine) := by
  let Ordered (plan other : PassPlan) : Prop :=
    (plan.version < other.version ∧ plan.engine ≤ other.engine) ∨
      (other.version < plan.version ∧ other.engine ≤ plan.engine)
  have hsymm : Std.Symm Ordered := ⟨fun _ _ ↦ Or.symm⟩
  have hordered : log.Pairwise Ordered := h.ordered.imp Or.inl
  exact hordered.forall hplan hother hne

theorem of_engines_eq (h : server.Records log) (hversion : server.version ≤ later.version)
    (hengines : later.engines = server.engines) (hcache : later.cache = server.cache) :
    later.Records log where
  ordered := h.ordered
  version_le hplan := Nat.le_trans (h.version_le hplan) hversion
  engine_lt hplan := hengines ▸ h.engine_lt hplan
  hasEngine := hengines ▸ h.hasEngine
  keepsRules hengine := h.keepsRules (hengines ▸ hengine)
  cache_eq := hcache.trans h.cache_eq

/-- An engine that keeps its rules may take the place of what it was. -/
theorem setEngine (h : server.Records log) {number : Nat} {engine successor : Engine Collector}
    (hengine : server.engines[number]? = some engine)
    (hkeeps : successor.KeepsRules .builtIn successor.config) :
    (server.setEngine number successor).Records log where
  ordered := h.ordered
  version_le := h.version_le
  engine_lt hplan := by simpa [Server.setEngine] using h.engine_lt hplan
  hasEngine := by simpa [Server.setEngine] using h.hasEngine
  keepsRules {other known} hknown := by
    rw [getElem?_setEngine hengine] at hknown
    split at hknown
    · cases hknown
      exact hkeeps
    · exact h.keepsRules hknown
  cache_eq := h.cache_eq

/-- An engine with any configuration may be installed. -/
theorem installs (h : server.Records log) (config : Config) :
    ({ server with engines := server.engines.push (.builtIn config) } : Server).Records log where
  ordered := h.ordered
  version_le := h.version_le
  engine_lt hplan := by
    have hlt := h.engine_lt hplan
    rw [Array.size_push]
    omega
  hasEngine := by simp
  keepsRules {number engine} hengine := by
    rw [Array.getElem?_push] at hengine
    split at hengine
    · cases hengine
      exact Engine.keepsRules_new .builtIn config
    · exact h.keepsRules hengine
  cache_eq := h.cache_eq

/-- A pass that is begun for the version drawn last comes after all others. -/
theorem afterBuild {plan : PassPlan} {engine : Engine Collector} (h : server.Records log)
    (hfits : (Task.build plan).Fits server log)
    (hengine : server.engines[plan.engine]? = some engine)
    (hversion : server.version = plan.version) :
    (server.afterBuild plan engine).Records (log ++ [plan]) := by
  have hbefore : ∀ earlier ∈ log, earlier.version < plan.version := by
    intro earlier hearlier
    have hle := h.version_le hearlier
    have hne := (hfits.drawn rfl).2 earlier hearlier
    omega
  have hset := h.setEngine hengine ((h.keepsRules hengine).begin
    (plan.assembly.buildCached plan.version server.cache).1).2.itself
  constructor
  · rw [List.pairwise_append]
    refine ⟨h.ordered, List.pairwise_singleton _ _, ?_⟩
    intro earlier hearlier later hlater
    cases List.mem_singleton.1 hlater
    have hlower := hbefore earlier hearlier
    exact ⟨hlower, (hfits.chosen rfl).2 earlier hearlier hlower⟩
  · intro other hother
    rcases List.mem_append.1 hother with hold | hnew
    · exact h.version_le hold
    · cases List.mem_singleton.1 hnew
      exact Nat.le_of_eq hversion.symm
  · intro other hother
    rcases List.mem_append.1 hother with hold | hnew
    · exact hset.engine_lt hold
    · cases List.mem_singleton.1 hnew
      simpa [Server.afterBuild, Server.setEngine] using (Array.getElem?_eq_some_iff.1 hengine).1
  · exact hset.hasEngine
  · exact hset.keepsRules
  · calc
      (plan.assembly.buildCached plan.version server.cache).2 =
          plan.call.next (.after (log.map PassPlan.call)) := by rw [← h.cache_eq]; rfl
      _ = .after ((log ++ [plan]).map PassPlan.call) := by
        rw [List.map_append, List.map_singleton, ParseCache.after, ParseCache.after,
          List.foldl_append]
        rfl

/-- After a step the record holds the plan of the pass that the step began, if it began one. -/
theorem step (h : server.Records log) (hfits : task.Fits server log) (order : List Nat) :
    (server.step order task).server.Records (log ++ (server.begun? task).toList) := by
  have hstep := server.stepsTo_step order task
  generalize server.step order task = result at hstep ⊢
  cases hbegun : server.begun? task with
  | some plan =>
    obtain ⟨rfl, -⟩ := begun?_eq_some hbegun
    cases hstep with
    | rests begun => cases begun.symm.trans hbegun
    | begins found current => exact h.afterBuild hfits found current
  | none =>
    rw [Option.toList_none, List.append_nil]
    cases hstep with
    | begins found current => cases hbegun.symm.trans (begun?_build found current)
    | installs config => exact h.installs config
    | draws => exact h.of_engines_eq (Nat.le_succ _) rfl rfl
    | @runs _ _ engine found =>
      obtain ⟨known, hknown, hrules, -⟩ := hfits.carries
      cases hknown.symm.trans found
      exact h.setEngine found ((h.keepsRules found).runIn [] none hrules).2.itself
    | @publishes _ _ engine _ found =>
      obtain ⟨known, hknown, hrules, -⟩ := hfits.carries
      cases hknown.symm.trans found
      exact h.setEngine found ((h.keepsRules found).complete hrules).itself
    | @drops _ _ engine _ found =>
      obtain ⟨known, hknown, hrules, -⟩ := hfits.carries
      cases hknown.symm.trans found
      exact h.setEngine found ((h.keepsRules found).complete hrules).itself
    | _ => exact h.of_engines_eq (Nat.le_refl _) rfl rfl

end Server.Records

/-! ## What a step leaves its task with -/

theorem Task.fits_of_drawn?_eq_none (hdrawn : task.drawn? = none)
    (hcarries : task.Carries server log) : task.Fits server log := by
  refine ⟨?_, ?_, hcarries⟩
  · intro version h
    rw [hdrawn] at h
    cases h
  · intro version engine h
    rw [Task.drawn?_of_chosen? h] at hdrawn
    cases hdrawn

theorem Task.IsIdle.drawn?_eq_none (h : task.IsIdle) : task.drawn? = none := by
  cases task <;> cases h <;> rfl

/-- A task that has nothing in hand fits any server. -/
theorem Task.IsIdle.fits (h : task.IsIdle) (server : Server) (log : List PassPlan) :
    task.Fits server log := by
  apply fits_of_drawn?_eq_none h.drawn?_eq_none
  cases task <;> trivial

namespace Task.Fits

variable {plan : PassPlan} {engine : Engine Collector}

/-- A pass that was just begun fits the server that began it. -/
theorem begins (hserver : server.Records log) (found : server.engines[plan.engine]? = some engine) :
    (Task.run plan
        (engine.begin (plan.assembly.buildCached plan.version server.cache).1).1).Fits
      (server.afterBuild plan engine) (log ++ [plan]) := by
  let snapshot := (plan.assembly.buildCached plan.version server.cache).1
  have hrules := (hserver.keepsRules found).begin snapshot
  refine fits_of_drawn?_eq_none rfl ⟨(engine.begin snapshot).2, ?_, ?_, log, ?_, ?_⟩
  · exact (Server.getElem?_setEngine found _).trans (if_pos rfl)
  · rw [hrules.2.config_eq]
    exact hrules.1
  · exact List.prefix_rfl
  · rw [← hserver.cache_eq]
    rfl

/-- A pass that has run fits the server on which it ran. -/
theorem runs {pass : PendingPass Collector} (h : (Task.run plan pass).Fits server log)
    (found : server.engines[plan.engine]? = some engine) :
    (Task.complete plan (engine.run pass).1).Fits
      (server.setEngine plan.engine (engine.run pass).2) log := by
  obtain ⟨known, hknown, hrules, hbegun⟩ := h.carries
  cases hknown.symm.trans found
  have hconfig := (engine.becomes_run pass).config_eq
  refine fits_of_drawn?_eq_none rfl ⟨(engine.run pass).2, ?_, ?_, pass.snapshot, hbegun, ?_⟩
  · exact (Server.getElem?_setEngine found _).trans (if_pos rfl)
  · rw [hconfig]
    exact hrules.runPassIn [] pass.snapshot _
  · intro set hset
    rw [hconfig]
    rcases Engine.outcome_run hrules with hcancelled | hfound
    · cases hcancelled.symm.trans hset
    · cases hfound.symm.trans hset
      rfl

/-- A result set that was just published fits the server, as one to send. -/
theorem publishes {pass : CompletedPass Collector} {set : ResultSet}
    (h : (Task.complete plan pass).Fits server log)
    (found : server.engines[plan.engine]? = some engine)
    (published : (engine.complete pass).1 = .published set) :
    (Task.send plan set).Fits (server.setEngine plan.engine (engine.complete pass).2) log := by
  obtain ⟨known, hknown, -, snapshot, hbegun, hset⟩ := h.carries
  cases hknown.symm.trans found
  have hoffer := (engine.complete_offer pass).published_of_set?
    (congrArg Publication.set? published)
  refine fits_of_drawn?_eq_none rfl ⟨(engine.complete pass).2, ?_, snapshot, hbegun, ?_⟩
  · exact (Server.getElem?_setEngine found _).trans (if_pos rfl)
  · rw [(engine.becomes_complete pass).config_eq]
    apply hset
    cases houtcome : pass.outcome with
    | ok other =>
      rw [houtcome] at hoffer
      cases hoffer.1
      rfl
    | error failure =>
      rw [houtcome] at hoffer
      cases hoffer.1

/-- A version that was just drawn fits the server. -/
theorem draws (hserver : server.Records log) :
    (Task.readEngine (server.version + 1)).Fits
      { server with version := server.version + 1 } log where
  drawn {version} hdrawn := by
    cases hdrawn
    refine ⟨Nat.le_refl _, ?_⟩
    intro plan hplan
    have hle := hserver.version_le hplan
    omega
  chosen hchosen := by cases hchosen
  carries := trivial

/-- The newest engine may be chosen for a version that was drawn. -/
theorem choosesEngine {version : Nat} (h : (Task.readEngine version).Fits server log)
    (hserver : server.Records log) (project : String) :
    (Task.readDocuments version project (server.engines.size - 1)).Fits server log where
  drawn := h.drawn
  chosen {drawn engine} hchosen := by
    cases hchosen
    have hpos := hserver.hasEngine
    refine ⟨by omega, ?_⟩
    intro plan hplan _
    have hlt := hserver.engine_lt hplan
    omega
  carries := trivial

/-- What a step leaves its task with fits the server after it. -/
theorem step (h : task.Fits server log) (hserver : server.Records log) (order : List Nat) :
    (server.step order task).next.Fits (server.step order task).server
      (log ++ (server.begun? task).toList) := by
  have hstep := server.stepsTo_step order task
  generalize server.step order task = result at hstep ⊢
  cases hbegun : server.begun? task with
  | some plan =>
    obtain ⟨rfl, -⟩ := Server.begun?_eq_some hbegun
    cases hstep with
    | rests begun => cases begun.symm.trans hbegun
    | begins found current => exact begins hserver found
  | none =>
    rw [Option.toList_none, List.append_nil]
    cases hstep with
    | begins found current => cases hbegun.symm.trans (Server.begun?_build found current)
    | rests _ _ _ _ idle => exact idle.fits server log
    | draws => exact draws hserver
    | choosesEngine version => exact h.choosesEngine hserver server.project
    | readsDocuments => exact ⟨h.drawn, h.chosen, trivial⟩
    | runs found => exact h.runs found
    | publishes found published => exact h.publishes found published
    | _ => exact fits_of_drawn?_eq_none rfl trivial

end Task.Fits

/-- A step draws a version that is higher than all before, or none. -/
theorem Server.drawn?_next_step {order : List Nat} {version : Nat}
    (h : (server.step order task).next.drawn? = some version) :
    task.drawn? = some version ∨ server.version < version := by
  have hstep := server.stepsTo_step order task
  generalize server.step order task = result at hstep h
  cases hstep with
  | rests _ _ _ _ idle => cases idle.drawn?_eq_none.symm.trans h
  | draws =>
    cases h
    exact .inr (Nat.lt_succ_self _)
  | choosesEngine => exact .inl h
  | readsDocuments => exact .inl h
  | _ => cases h

theorem Notification.drawn?_task (notification : Notification) :
    notification.task.drawn? = none := by
  cases notification with
  | changed address texts version =>
    rw [task]
    split <;> rfl
  | _ => rfl

theorem Notification.fits_task (notification : Notification) (server : Server)
    (log : List PassPlan) : notification.task.Fits server log := by
  apply Task.fits_of_drawn?_eq_none notification.drawn?_task
  cases notification with
  | changed address texts version =>
    rw [task]
    split <;> trivial
  | _ => trivial

/-! ## Sessions -/

namespace Session

variable {session : Session}

abbrev begun (session : Session) (happenings : List Happening) : List PassPlan :=
  session.seen (fun server _ ↦ server.begun?) happenings

/-- The plans of the passes begun so far fit all of the session. -/
structure Records (session : Session) (log : List PassPlan) : Prop where
  server : session.server.Records log
  fits {number : Nat} {task : Task} :
    session.tasks[number]? = some task → task.Fits session.server log
  /-- Two passes that still have to begin have different versions. -/
  drawnOnce {number other version : Nat} {task known : Task} :
    session.tasks[number]? = some task → session.tasks[other]? = some known →
      task.drawn? = some version → known.drawn? = some version → number = other

/-- Nothing was begun before anything happened. -/
theorem records_new (host : Host) (workspace : Option Workspace) (project : String) :
    (Session.new (.new host workspace project)).Records [] := by
  refine ⟨⟨.nil, ?_, ?_, Nat.one_pos, ?_, rfl⟩, ?_, ?_⟩
  · intro plan hplan
    cases hplan
  · intro plan hplan
    cases hplan
  · intro number engine hengine
    cases Array.mem_singleton.1 (Array.mem_of_getElem? hengine)
    exact Engine.keepsRules_new .builtIn .default
  · intro number task htask
    simp [Session.new] at htask
  · intro number other version task known htask
    simp [Session.new] at htask

/-- A notification that comes in begins no pass by itself. -/
theorem Records.start (h : session.Records log) (notification : Notification) :
    (session.start notification).Records log := by
  have hold {number : Nat} {task : Task} {version : Nat}
      (htask : (session.start notification).tasks[number]? = some task)
      (hdrawn : task.drawn? = some version) : session.tasks[number]? = some task := by
    simp only [Session.start, Array.getElem?_push] at htask
    split at htask
    · cases htask
      have hnone : notification.task.drawn? = none := notification.drawn?_task
      rw [hnone] at hdrawn
      cases hdrawn
    · exact htask
  refine ⟨h.server, ?_, ?_⟩
  · intro number task htask
    simp only [Session.start, Array.getElem?_push] at htask
    split at htask
    · cases htask
      exact notification.fits_task session.server log
    · exact h.fits htask
  · intro number other version task known htask hknown hdrawn hdrawn'
    exact h.drawnOnce (hold htask hdrawn) (hold hknown hdrawn') hdrawn hdrawn'

/-- A version that the next step draws is not the one of another task. -/
theorem Records.drawn?_next_ne (h : session.Records log) {number other version : Nat}
    {task known : Task} (htask : session.ready? number = some task) (hne : other ≠ number)
    (hknown : session.tasks[other]? = some known) (hdrawn : known.drawn? = some version)
    (order : List Nat) : (session.server.step order task).next.drawn? ≠ some version := by
  intro hnext
  rcases Server.drawn?_next_step hnext with hsame | hlater
  · exact hne (h.drawnOnce hknown (getElem?_of_ready? htask) hdrawn hsame)
  · have hle := ((h.fits hknown).drawn hdrawn).1
    omega

/-- The record grows by the pass that the task begins, if it begins one. -/
theorem Records.advance (h : session.Records log) {number : Nat} {task : Task}
    (htask : session.ready? number = some task) (order : List Nat) :
    (session.advance number order).Records (log ++ (session.server.begun? task).toList) := by
  have hfits := h.fits (getElem?_of_ready? htask)
  -- The other tasks stand still while the record grows; only a pass for the last version is begun.
  refine ⟨server_advance htask order ▸ h.server.step hfits order, ?_, ?_⟩
  · intro other known hknown
    rw [server_advance htask order]
    rcases of_getElem?_advance htask hknown with ⟨-, rfl⟩ | ⟨hne, hold⟩
    · exact hfits.step h.server order
    · apply (h.fits hold).grow (session.server.grows_step order task)
      intro version hdrawn plan hplan
      obtain ⟨rfl, -, hversion⟩ := Server.begun?_eq_some (Option.mem_toList.1 hplan)
      have hle := ((h.fits hold).drawn hdrawn).1
      have hdiffer : version ≠ plan.version := by
        rintro rfl
        exact hne (h.drawnOnce hold (getElem?_of_ready? htask) hdrawn rfl)
      omega
  · intro first second version known known' hfirst hsecond hdrawn hdrawn'
    rcases of_getElem?_advance htask hfirst with ⟨heq, rfl⟩ | ⟨hne, hold⟩ <;>
      rcases of_getElem?_advance htask hsecond with ⟨heq', rfl⟩ | ⟨hne', hold'⟩
    · exact heq.trans heq'.symm
    · exact absurd hdrawn (h.drawn?_next_ne htask hne' hold' hdrawn' order)
    · exact absurd hdrawn' (h.drawn?_next_ne htask hne hold hdrawn order)
    · exact h.drawnOnce hold hold' hdrawn hdrawn'

/-- The record grows by the passes that begin, whatever happens. -/
theorem Records.happen (h : session.Records log) (happening : Happening) :
    (session.happen happening).Records
      (log ++ (session.seen? (fun server _ ↦ server.begun?) happening).toList) := by
  cases happening with
  | arrives notification =>
    rw [seen?, Option.toList_none, List.append_nil]
    exact h.start notification
  | advances number order =>
    rw [seen?]
    cases htask : session.ready? number with
    | none =>
      rw [Option.bind_none, Option.toList_none, List.append_nil, Session.happen,
        advance_of_none htask]
      exact h
    | some task => exact h.advance htask order

/-- Whatever happens, the plans of the passes begun so far fit the session. -/
theorem Records.run (h : session.Records log) (happenings : List Happening) :
    (session.run happenings).Records (log ++ session.begun happenings) := by
  induction happenings generalizing session log with
  | nil =>
    rw [begun, seen, List.append_nil]
    exact h
  | cons happening rest ih =>
    rw [begun, seen, ← List.append_assoc]
    exact ih (h.happen happening)

end Session

end Editor

end VbaLint
