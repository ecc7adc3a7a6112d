import VbaLint.Proofs.Editor.History
import VbaLint.Proofs.Pass.Configuration

/-!
# Diagnostics follow the documents

If notifications are taken in one at a time, the server knows at any time what their history says.
Each pass is then made over all documents in their current state, and is sent to the open ones.
-/

namespace VbaLint.Editor

open Files Text

/-! ## What a pass sends -/

/-- If names do not collide, a document shows what lies in the module of its name. -/
theorem PassPlan.diagnosticsOf_of_namesApart {plan : PassPlan} {set : ResultSet}
    (haddresses : (plan.documents.map (·.1)).Nodup)
    (hlies : ∀ finding ∈ set.findings, finding.LiesIn (plan.assembly.build plan.version))
    (hapart : plan.documents.NamesApart) {located : Located}
    (hlocated : located ∈ plan.documents.opened) :
    diagnosticsOf plan.documents.opened set located.1 =
      (set.findings.filter (·.module == ⟨plan.project, located.2.name⟩)).map .ofFinding := by
  have hlands := landsWhereRead_of_namesApart haddresses hlies hapart
  rw [diagnosticsOf_eq_map, findingsShownAt]
  congr 1
  apply List.filter_congr
  intro finding hfinding
  rw [Bool.eq_iff_iff, beq_iff_eq, beq_iff_eq]
  constructor
  · intro hshown
    have hsource := hlands located hlocated finding
      (List.mem_filter.2 ⟨hfinding, beq_iff_eq.2 hshown⟩)
    have hfound := List.find?_some hsource
    exact (eq_of_beq hfound).symm
  · intro hmodule
    let isNamed (known : Located) : Bool := sameName known.2.name located.2.name
    obtain ⟨first, hfirst⟩ : ∃ first, List.find? isNamed plan.documents.opened = some first := by
      rw [← Option.isSome_iff_exists, List.find?_isSome]
      exact ⟨located, hlocated, beq_self_eq_true _⟩
    have hnamed : isNamed first = true := List.find?_some hfirst
    have hopened := List.mem_filter.1 (List.mem_of_find?_eq_some hfirst)
    have hsame : located = first :=
      hapart first hopened.1 hopened.2 located (List.mem_filter.1 hlocated).1 hnamed
    rw [hmodule]
    change (List.find? isNamed plan.documents.opened).map (·.1) = some located.1
    rw [hfirst, hsame, Option.map_some]

namespace Server

variable {server : Server} {config : Config} {IsKnown : String → Prop}

/-- The server is ready to make passes with a configuration, and its cache keeps known texts only. -/
structure Ready (server : Server) (config : Config) (IsKnown : String → Prop) : Prop where
  engine : ∃ engine, server.engines[server.engines.size - 1]? = some engine ∧
    engine.KeepsRules .builtIn config ∧
      ∀ version, engine.store.version? = some version → version ≤ server.version
  cache : ∃ calls, server.cache = .after calls ∧
    ∀ source ∈ CacheCall.allSources calls, IsKnown source.text

/-- What is sent for the open ones among some documents, if the findings of a pass are these. -/
def openMessages (project : String) (documents : Documents) (findings : List Finding) :
    List Message :=
  documents.opened.map fun located ↦
    .diagnostics located.1
      ((findings.filter (·.module == ⟨project, located.2.name⟩)).map .ofFinding)
      located.2.version

/-- If names do not collide, a pass without faults is sent to the open documents, each with what lies in its
module. -/
theorem messages_perm_openMessages {plan : PassPlan} {set : ResultSet}
    (haddresses : (plan.documents.map (·.1)).Nodup)
    (hlies : ∀ finding ∈ set.findings, finding.LiesIn (plan.assembly.build plan.version))
    (hapart : plan.documents.NamesApart) (hfaults : set.faults = []) (places : List Nat) :
    (messages places plan set).Perm (openMessages plan.project plan.documents set.findings) := by
  rw [messages, hfaults]
  refine ((Documents.inOrder_perm _ places).map _).trans (.of_eq (List.map_congr_left ?_))
  intro located hlocated
  rw [plan.diagnosticsOf_of_namesApart haddresses hlies hapart hlocated]

/-- All texts that the cache was ever asked for are known, those of the next pass included. -/
theorem isKnown_of_mem_allSources {calls : List CacheCall}
    (hcalls : ∀ source ∈ CacheCall.allSources calls, IsKnown source.text)
    (hknown : ∀ located ∈ server.documents, IsKnown located.2.text) (order : Task → List Nat) :
    ∀ source ∈ CacheCall.allSources (calls ++ [(server.nextPlan order).call]), IsKnown source.text := by
  intro source hsource
  rw [allSources_concat] at hsource
  rcases List.mem_append.1 hsource with hearlier | hnow
  · exact hcalls source hearlier
  · obtain ⟨module, hmodule, rfl⟩ := List.mem_map.1 hnow
    obtain ⟨located, hlocated, rfl⟩ := List.mem_map.1 (Assembly.subset_ofModules _ _ hmodule)
    exact hknown located ((Documents.inOrder_perm _ _).mem_iff.1 hlocated)

/-- If digests tell apart all texts that the cache was ever asked for, a pass is built as without a cache. -/
theorem buildCached_eq_build {calls : List CacheCall} {plan : PassPlan}
    (hcache : server.cache = .after calls)
    (hdigests : DigestsTellApart (CacheCall.allSources (calls ++ [plan.call]))) :
    (plan.assembly.buildCached plan.version server.cache).1 = plan.assembly.build plan.version := by
  rw [hcache]
  calc
    (plan.assembly.buildCached plan.version (.after calls)).1 = plan.assembly.snapshot plan.version :=
      Assembly.buildCached_after hdigests
    _ = plan.assembly.build plan.version :=
      (Assembly.build_eq_snapshot (Assembly.nodup_components _ _) plan.version).symm

/-- A server that is ready makes a pass over its documents and is ready for the next. -/
theorem Ready.finish_drawVersion (h : server.Ready config IsKnown)
    (haddresses : (server.documents.map (·.1)).Nodup) (hapart : server.documents.NamesApart)
    (hknown : ∀ located ∈ server.documents, IsKnown located.2.text)
    (hdigests : ∀ text other, IsKnown text → IsKnown other →
      Sha256.hex text.toUTF8 = Sha256.hex other.toUTF8 → text = other)
    (order : Task → List Nat) :
    let listing := server.documents.inOrder (server.readingOrder order)
    let version := server.version + 1
    let set := Runner.builtInSet config ((listing.assembly server.project).build version)
    ∃ sent engines cache,
      server.finish order .drawVersion =
          (sent, { server with version, engines, cache, isSending := false }) ∧
        sent.Perm (openMessages server.project listing set.findings) ∧
        Ready { server with version, engines, cache, isSending := false } config IsKnown := by
  intro listing version set
  obtain ⟨engine, hengine, hkeeps, hshown⟩ := h.engine
  obtain ⟨calls, hcache, hcalls⟩ := h.cache
  let plan := server.nextPlan order
  let built := plan.assembly.buildCached version server.cache
  have hlisted : listing.Perm server.documents := Documents.inOrder_perm _ _
  have hsources := isKnown_of_mem_allSources hcalls hknown order
  have hbuilt : built.1 = plan.assembly.build version :=
    buildCached_eq_build hcache fun source hsource other hother ↦
      hdigests _ _ (hsources source hsource) (hsources other hother)
  have hconfig := hkeeps.config_eq
  subst hconfig
  have hset : Runner.builtInSet engine.config built.1 = set := by rw [hbuilt]; rfl
  have hmessages (places : List Nat) :
      (messages places plan (Runner.builtInSet engine.config built.1)).Perm
        (openMessages server.project listing set.findings) := by
    rw [hset]
    exact messages_perm_openMessages ((hlisted.map _).nodup_iff.2 haddresses)
      (fun _ ↦ Runner.liesIn_builtInSet) (hapart.perm hlisted) (Runner.faults_builtInSet _ _) places
  have hadmits : engine.store.Admits (Runner.builtInSet engine.config built.1) :=
    fun shown hversion ↦ Nat.le_succ_of_le (hshown shown hversion)
  let successor := (engine.completion built.1).2
  refine ⟨_, (server.setEngine plan.engine successor).engines, built.2,
    finish_drawVersion hengine hkeeps hshown order, hmessages _, ?_, calls ++ [plan.call], ?_, hsources⟩
  · have hfound : (server.setEngine plan.engine successor).engines[plan.engine]? = some successor :=
      (getElem?_setEngine hengine _).trans (if_pos rfl)
    refine ⟨successor, ?_, Engine.keepsRules_completion hkeeps built.1, ?_⟩
    · rwa [setEngine, Array.set!_eq_setIfInBounds, Array.size_setIfInBounds]
    · rw [Engine.store_completion hkeeps hadmits]
      rintro shown hversion
      cases hversion
      exact Nat.le_refl version
  · rw [ParseCache.after_concat, ← hcache]
    rfl

theorem Ready.mono (h : server.Ready config IsKnown) {IsKnown' : String → Prop}
    (hmono : ∀ text, IsKnown text → IsKnown' text) : server.Ready config IsKnown' := by
  obtain ⟨calls, hcache, hcalls⟩ := h.cache
  exact ⟨h.engine, calls, hcache, fun source hsource ↦ hmono _ (hcalls source hsource)⟩

/-! ## Tasks that make no pass -/

theorem finish_edit (server : Server) (order : Task → List Nat) (address text : String)
    (version : Int) :
    server.finish order (.edit address text version) =
      match openDocument? server.host address text version with
      | some document =>
        { server with documents := server.documents.put address document }.finish order
          .drawVersion
      | none => ([], server) := by
  rw [finish_eq (by simp [Task.remainder]), step, edit]
  cases openDocument? server.host address text version <;> simp

theorem finish_checkKnown (server : Server) (order : Task → List Nat) (address : String) :
    server.finish order (.checkKnown address) =
      if (server.documents.find? address).isSome then server.finish order .drawVersion
      else ([], server) := by
  rw [finish_eq (by simp [Task.remainder]), step]
  split <;> simp

theorem finish_close (server : Server) (order : Task → List Nat) (address : String) :
    server.finish order (.close address) =
      ([.diagnostics address [] none],
        { server with documents := server.documents.close address }) := by
  rw [finish_eq (by simp [Task.remainder]), step]
  dsimp only
  rw [finish_eq (by simp [Task.remainder]), step]
  dsimp only
  rw [finish_finished]
  rfl

def enginesAfter (server : Server) : Option Config → Array (Engine Collector)
  | some config => server.engines.push (.builtIn config)
  | none => server.engines

theorem finish_announce (server : Server) (order : Task → List Nat) :
    server.finish order .announce = ([.log 3 "vbinspect LSP server initialized"], server) := by
  rw [finish_eq (by simp [Task.remainder]), step]
  dsimp only
  rw [finish_finished]
  rfl

/-- The documents on disk are taken in, and the log tells of it. -/
theorem finish_loadDocuments (server : Server) (order : Task → List Nat) {workspace : Workspace}
    (hworkspace : server.workspace = some workspace) :
    let components := (server.host.loadComponents? workspace.files workspace.root).getD []
    ∃ sent, (∀ message ∈ sent, message.IsLog) ∧
      server.finish order .loadDocuments =
        (sent, { server with documents := server.afterLoading components }) := by
  rw [finish_eq (by simp [Task.remainder]), step]
  cases hfound : server.host.loadComponents? workspace.files workspace.root with
  | none =>
    have hload : server.loadDocuments =
        ⟨[.log 1 ("Failed to load workspace: " ++ server.host.loadCause workspace.root)], server,
          .announce⟩ := by
      simp only [loadDocuments, hworkspace, hfound]
    rw [hload]
    dsimp only
    rw [finish_announce]
    exact ⟨[.log 1 _, .log 3 _], by simp [Message.IsLog], rfl⟩
  | some components =>
    have hload : server.loadDocuments =
        ⟨[], { server with documents := server.afterLoading components }, .announce⟩ := by
      simp only [loadDocuments, hworkspace, hfound]
      rfl
    rw [hload]
    dsimp only
    rw [finish_announce]
    exact ⟨[.log 3 _], by simp [Message.IsLog], rfl⟩

@[simp]
theorem host_seeing (server : Server) (files : FileView) : (server.seeing files).host = server.host := rfl

/-- A configuration that is read gets an engine, and one that cannot be read is told of in the log. -/
theorem exists_loadConfig_eq (server : Server) {turn : Turn} {workspace : Workspace}
    (hturn : turn.notification = .initialized) (hworkspace : server.workspace = some workspace) :
    ∃ logs, (∀ message ∈ logs, message.IsLog) ∧
      (server.seeing turn.files).loadConfig =
        ⟨logs,
          { server.seeing turn.files with engines := server.enginesAfter (turn.configured? server.home) },
          .loadDocuments⟩ := by
  have hseen : (server.seeing turn.files).workspace = some { workspace with files := turn.files } := by
    simp [seeing, hworkspace]
  have hroot : server.home.root = some workspace.root := by simp [Server.home, Home.of, hworkspace]
  have hconfigured : turn.configured? server.home =
      (loadConfigBy server.host.parseConfig? turn.files workspace.root).toOption.map
        (·.getD .default) := by
    rw [Turn.configured?, hturn, hroot]
    rfl
  rw [hconfigured]
  cases hconfig : loadConfigBy server.host.parseConfig? turn.files workspace.root with
  | ok config =>
    refine ⟨[], nofun, ?_⟩
    simp only [loadConfig, hseen, host_seeing, hconfig]
    rfl
  | error error =>
    let text := "Invalid configuration: " ++ error.message ++ ": " ++ server.host.configCause error
    refine ⟨[.log 1 text], List.forall_mem_singleton.2 trivial, ?_⟩
    simp only [loadConfig, hseen, host_seeing, hconfig]
    rw [← hseen]
    rfl

/-- Loading the workspace sends messages to the log only. -/
theorem finish_loadConfig (server : Server) {turn : Turn}
    (hturn : turn.notification = .initialized) :
    let home := server.home
    ∃ sent, (∀ message ∈ sent, message.IsLog) ∧
      (server.seeing turn.files).finish turn.order .loadConfig =
        (sent,
          { server.seeing turn.files with
            engines := server.enginesAfter (turn.configured? home)
            documents := server.afterLoading (turn.found home) }) := by
  intro home
  rw [finish_eq (by simp [Task.remainder]), step]
  cases hworkspace : server.workspace with
  | none =>
    have hroot : home.root = none := by simp [home, Server.home, Home.of, hworkspace]
    have hfound : turn.found home = [] := by simp [Turn.found, hturn, hroot]
    have hconfigured : turn.configured? home = none := by simp [Turn.configured?, hturn, hroot]
    have hload : (server.seeing turn.files).loadConfig =
        ⟨[], server.seeing turn.files, .announce⟩ := by
      simp [loadConfig, seeing, hworkspace]
    rw [hfound, hconfigured, hload]
    dsimp only
    rw [finish_announce]
    exact ⟨[.log 3 _], by simp [Message.IsLog], rfl⟩
  | some workspace =>
    have hroot : home.root = some workspace.root := by simp [home, Server.home, Home.of, hworkspace]
    have hfound : turn.found home =
        (server.host.loadComponents? turn.files workspace.root).getD [] := by
      rw [Turn.found, hturn, hroot]
      rfl
    let engines := server.enginesAfter (turn.configured? home)
    obtain ⟨logs, hlogs, hload⟩ := server.exists_loadConfig_eq hturn hworkspace
    have hseen : { server.seeing turn.files with engines }.workspace =
        some { workspace with files := turn.files } := by
      simp [seeing, hworkspace]
    obtain ⟨sent, hsent, hrest⟩ :=
      finish_loadDocuments { server.seeing turn.files with engines } turn.order hseen
    refine ⟨logs ++ sent, List.forall_mem_append.2 ⟨hlogs, hsent⟩, ?_⟩
    rw [hload, hfound]
    dsimp only
    rw [hrest]
    rfl

/-! ## Turns -/

structure Knows (server : Server) (home : Home) (project : String) (turns : List Turn) :
    Prop where
  home_eq : server.home = home
  project_eq : server.project = project
  isSending_eq : server.isSending = false
  lists : server.documents.Lists home turns
  ready : server.Ready (configAfter home turns) (TextKnown home turns)

structure Follows (server : Server) (home : Home) (project : String) (turns : List Turn) :
    Prop extends server.Knows home project turns where
  version_eq : server.version = passes home turns

end Server

def findingsAfter (home : Home) (project : String) (turns : List Turn)
    (listing : Documents) : List Finding :=
  (Runner.builtInSet (configAfter home turns)
    ((listing.assembly project).build (passes home turns))).findings

/-- What a turn sends that comes after others: if it triggers a pass, what is found in the documents
then known, for the open ones; if it closes a document, that nothing is found in it. -/
def Turn.Sends (home : Home) (project : String) (before : List Turn) (turn : Turn)
    (sent : List Message) : Prop :=
  if turn.triggers home before then
    ∃ listing : Documents, listing.Lists home (before ++ [turn]) ∧
      sent.Perm (Server.openMessages project listing
        (findingsAfter home project (before ++ [turn]) listing))
  else
    match turn.notification with
    | .closed address => sent = [.diagnostics address [] none]
    | _ => ∀ message ∈ sent, message.IsLog

theorem Turn.sends_logs {home : Home} {project : String} {before : List Turn} {turn : Turn}
    {sent : List Message} (htriggers : turn.triggers home before = false)
    (hclosed : ∀ address, turn.notification ≠ .closed address)
    (hlogs : ∀ message ∈ sent, message.IsLog) : turn.Sends home project before sent := by
  rw [Sends, htriggers, if_neg Bool.false_ne_true]
  split
  · next hturn => exact absurd hturn (hclosed _)
  · exact hlogs

namespace Server

variable {server : Server} {home : Home} {project : String} {turns : List Turn}
  {turn : Turn}

/-- A new server follows the history in which nothing has happened. -/
theorem follows_new (host : Host) (workspace : Option Workspace) (project : String) :
    (Server.new host workspace project).Follows (.of host workspace) project [] where
  home_eq := rfl
  project_eq := rfl
  isSending_eq := rfl
  lists := .of_find? List.nodup_nil fun _ ↦ rfl
  ready :=
    { engine := ⟨.builtIn .default, rfl, Engine.keepsRules_new _ _, fun _ h ↦ by cases h⟩
      cache := ⟨[], rfl, fun _ h ↦ by cases h⟩ }
  version_eq := rfl

/-- Files that appear on disk do not change what the server knows. -/
theorem Knows.seeing (h : server.Knows home project turns) (files : FileView) :
    (server.seeing files).Knows home project turns where
  home_eq := by
    rw [← h.home_eq, Server.home, Server.seeing, Home.of, Option.map_map]
    rfl
  project_eq := h.project_eq
  isSending_eq := h.isSending_eq
  lists := h.lists
  ready := ⟨h.ready.engine, h.ready.cache⟩

/-- The server takes in what a turn says of the documents. -/
theorem Knows.withDocuments (h : server.Knows home project turns) {documents : Documents}
    (hnodup : (documents.map (·.1)).Nodup)
    (hfind : ∀ address, documents.find? address =
      turn.documentAfter home address (server.documents.find? address))
    (hturn : turn.notification ≠ .initialized) :
    { server with documents }.Knows home project (turns ++ [turn]) where
  home_eq := h.home_eq
  project_eq := h.project_eq
  isSending_eq := h.isSending_eq
  lists := .of_find? hnodup fun address ↦ by
    rw [hfind, documentAt_concat, h.lists.find?_eq]
  ready := by
    rw [configAfter_concat, Turn.configured?_of_ne hturn]
    have hready := h.ready.mono fun _ hknown ↦ hknown.mono (List.prefix_append turns [turn])
    exact ⟨hready.engine, hready.cache⟩

/-- A turn is over if it triggers no pass. -/
theorem Knows.follows_of_not_triggers (h : server.Knows home project (turns ++ [turn]))
    (hversion : server.version = passes home turns) (htriggers : turn.triggers home turns = false) :
    server.Follows home project (turns ++ [turn]) where
  toKnows := h
  version_eq := by
    rw [passes_concat, htriggers, hversion]
    rfl

/-- The pass that a turn triggers is made over the documents known after it. -/
theorem Knows.finish_drawVersion (h : server.Knows home project (turns ++ [turn]))
    (hversion : server.version = passes home turns) (htriggers : turn.triggers home turns = true)
    (hnames : NamesDiffer home (turns ++ [turn])) (htexts : TextsDiffer home (turns ++ [turn]))
    (order : Task → List Nat) :
    turn.Sends home project turns (server.finish order .drawVersion).1 ∧
      (server.finish order .drawVersion).2.Follows home project (turns ++ [turn]) := by
  obtain ⟨sent, engines, cache, hfinish, hsent, hready⟩ := h.ready.finish_drawVersion h.lists.nodup
    (h.lists.namesApart hnames) (fun _ hlocated ↦ h.lists.textKnown hlocated) htexts order
  have hnumber : server.version + 1 = passes home (turns ++ [turn]) := by
    rw [passes_concat, htriggers, hversion]
    rfl
  rw [hfinish]
  constructor
  · rw [Turn.Sends, if_pos htriggers]
    refine ⟨_, h.lists.perm (Documents.inOrder_perm _ (server.readingOrder order)), ?_⟩
    rw [findingsAfter, ← hnumber, ← h.project_eq]
    exact hsent
  · exact ⟨⟨h.home_eq, h.project_eq, rfl, h.lists, hready⟩, hnumber⟩

/-- A turn that says nothing of the documents or the configuration leaves the server as it is. -/
theorem Follows.idle (h : server.Follows home project turns) (hgiven : turn.given? home = none)
    (hinitialized : turn.notification ≠ .initialized)
    (hclosed : ∀ address, turn.notification ≠ .closed address) :
    server.Knows home project (turns ++ [turn]) :=
  h.toKnows.withDocuments h.lists.nodup
    (fun _ ↦ (Turn.documentAfter_of_idle hgiven hinitialized (hclosed _) _).symm) hinitialized

/-- A turn that gives no text, closes nothing, installs no engine and triggers no pass changes nothing to
follow. -/
theorem Follows.rest (h : server.Follows home project turns) (hgiven : turn.given? home = none)
    (hinitialized : turn.notification ≠ .initialized)
    (hclosed : ∀ address, turn.notification ≠ .closed address)
    (htriggers : turn.triggers home turns = false) :
    turn.Sends home project turns [] ∧ server.Follows home project (turns ++ [turn]) :=
  ⟨Turn.sends_logs htriggers hclosed (by simp),
    (h.idle hgiven hinitialized hclosed).follows_of_not_triggers h.version_eq htriggers⟩

/-- A text of the editor is taken in. -/
theorem Follows.edit (h : server.Follows home project turns) {address text : String} {version : Int}
    (htext : turn.notification.text? = some (address, text, version))
    (hnames : NamesDiffer home (turns ++ [turn])) (htexts : TextsDiffer home (turns ++ [turn]))
    (order : Task → List Nat) :
    let taken := server.finish order (.edit address text version)
    turn.Sends home project turns taken.1 ∧ taken.2.Follows home project (turns ++ [turn]) := by
  have hinitialized : turn.notification ≠ .initialized := by
    intro heq
    simp [heq, Notification.text?] at htext
  have hclosed (other : String) : turn.notification ≠ .closed other := by
    intro heq
    simp [heq, Notification.text?] at htext
  have htriggers : turn.triggers home turns = (turn.given? home).isSome := Turn.triggers_of_text? htext
  have hgiven : turn.given? home =
      (openDocument? server.host address text version).map (address, ·) := by
    rw [Turn.given?, htext, Option.bind_some, ← h.home_eq]
    rfl
  intro taken
  cases hdocument : openDocument? server.host address text version with
  | none =>
    have hnone : turn.given? home = none := by rw [hgiven, hdocument, Option.map_none]
    rw [hnone, Option.isSome_none] at htriggers
    have htaken : taken = ([], server) := by simp only [taken, finish_edit, hdocument]
    rw [htaken]
    exact h.rest hnone hinitialized hclosed htriggers
  | some document =>
    have hsome : turn.given? home = some (address, document) := by rw [hgiven, hdocument, Option.map_some]
    rw [hsome, Option.isSome_some] at htriggers
    let given : Server := { server with documents := server.documents.put address document }
    have hknows : given.Knows home project (turns ++ [turn]) :=
      h.toKnows.withDocuments (Documents.nodup_put h.lists.nodup address document)
        (fun other ↦ by rw [Documents.find?_put, Turn.documentAfter, hsome]) hinitialized
    have htaken : taken = given.finish order .drawVersion := by
      simp only [taken, finish_edit, hdocument, given]
    rw [htaken]
    exact hknows.finish_drawVersion h.version_eq htriggers hnames htexts order

/-- A document is saved. -/
theorem Follows.save (h : server.Follows home project turns) {address : String}
    (hturn : turn.notification = .saved address) (hnames : NamesDiffer home (turns ++ [turn]))
    (htexts : TextsDiffer home (turns ++ [turn])) (order : Task → List Nat) :
    let taken := server.finish order (.checkKnown address)
    turn.Sends home project turns taken.1 ∧ taken.2.Follows home project (turns ++ [turn]) := by
  have hclosed (other : String) : turn.notification ≠ .closed other := by
    rw [hturn]
    exact Notification.noConfusion
  have hgiven : turn.given? home = none := by simp [Turn.given?, hturn, Notification.text?]
  have hinitialized : turn.notification ≠ .initialized := by
    rw [hturn]
    exact Notification.noConfusion
  have htriggers : turn.triggers home turns = (server.documents.find? address).isSome := by
    rw [Turn.triggers, hturn, h.lists.find?_eq]
  intro taken
  have htaken : taken = _ := server.finish_checkKnown order address
  rw [htaken, ← htriggers]
  split
  · next hsome =>
    exact (h.idle hgiven hinitialized hclosed).finish_drawVersion h.version_eq hsome hnames htexts
      order
  · next hnone => exact h.rest hgiven hinitialized hclosed (Bool.not_eq_true _ ▸ hnone)

/-- A document is closed. -/
theorem Follows.close (h : server.Follows home project turns) {address : String}
    (hturn : turn.notification = .closed address) (order : Task → List Nat) :
    let taken := server.finish order (.close address)
    turn.Sends home project turns taken.1 ∧ taken.2.Follows home project (turns ++ [turn]) := by
  have hgiven : turn.given? home = none := by simp [Turn.given?, hturn, Notification.text?]
  have htriggers : turn.triggers home turns = false := by simp [Turn.triggers, hturn, hgiven]
  have hinitialized : turn.notification ≠ .initialized := by
    rw [hturn]
    exact Notification.noConfusion
  intro taken
  have htaken : taken = ([.diagnostics address [] none],
      { server with documents := server.documents.close address }) := server.finish_close order address
  rw [htaken]
  constructor
  · rw [Turn.Sends, htriggers, if_neg Bool.false_ne_true, hturn]
  · refine Knows.follows_of_not_triggers (h.toKnows.withDocuments ?_ (fun other ↦ ?_) hinitialized)
      h.version_eq htriggers
    · rw [Documents.map_fst_close]
      exact h.lists.nodup
    · rw [Documents.find?_close, Turn.documentAfter, hgiven, hturn, Turn.found_of_ne hinitialized]
      simp

/-- The workspace is loaded. -/
theorem Follows.load (h : server.Follows home project turns)
    (hturn : turn.notification = .initialized) :
    let taken := (server.seeing turn.files).finish turn.order .loadConfig
    turn.Sends home project turns taken.1 ∧ taken.2.Follows home project (turns ++ [turn]) := by
  intro taken
  have hclosed (address : String) : turn.notification ≠ .closed address := by
    rw [hturn]
    exact Notification.noConfusion
  have hgiven : turn.given? home = none := by simp [Turn.given?, hturn, Notification.text?]
  have htriggers : turn.triggers home turns = false := by simp [Turn.triggers, hturn, hgiven]
  obtain ⟨sent, hlogs, hloaded⟩ := server.finish_loadConfig hturn
  have hseeing := h.seeing turn.files
  rw [h.home_eq] at hloaded
  rw [show taken = _ from hloaded]
  refine ⟨Turn.sends_logs htriggers hclosed hlogs, ?_⟩
  refine Knows.follows_of_not_triggers ?_ h.version_eq htriggers
  have hready := hseeing.ready.mono fun _ hknown ↦ hknown.mono (List.prefix_append turns [turn])
  have hhost : server.host = home.host := congrArg Home.host h.home_eq
  refine ⟨hseeing.home_eq, h.project_eq, h.isSending_eq, ?_, ?_, hready.cache⟩
  · refine .of_find? (Documents.nodup_foldl_takeIn h.lists.nodup _ _) fun address ↦ ?_
    rw [afterLoading, Documents.find?_foldl_takeIn, documentAt_concat, Turn.documentAfter, hgiven,
      h.lists.find?_eq, hhost]
    exact (if_neg (hclosed address)).symm
  · rw [configAfter_concat]
    cases turn.configured? home with
    | none => exact hready.engine
    | some config =>
      refine ⟨.builtIn config, ?_, Engine.keepsRules_new _ _, fun _ hshown ↦ by cases hshown⟩
      simp [enginesAfter]

/-- What the server knows, and what it sends, follow the turns. -/
theorem Follows.take (h : server.Follows home project turns)
    (hnames : NamesDiffer home (turns ++ [turn])) (htexts : TextsDiffer home (turns ++ [turn])) :
    turn.Sends home project turns (server.take turn).1 ∧
      (server.take turn).2.Follows home project (turns ++ [turn]) := by
  have hseeing : (server.seeing turn.files).Follows home project turns :=
    ⟨h.toKnows.seeing turn.files, h.version_eq⟩
  rw [Server.take]
  cases hturn : turn.notification with
  | initialized => exact h.load hturn
  | opened address text version =>
    exact hseeing.edit (by rw [hturn]; rfl) hnames htexts turn.order
  | changed address texts version =>
    cases hlast : texts.getLast? with
    | none =>
      have hgiven : turn.given? home = none := by simp [Turn.given?, hturn, Notification.text?, hlast]
      have hclosed (other : String) : turn.notification ≠ .closed other := by
        rw [hturn]
        exact Notification.noConfusion
      have htriggers : turn.triggers home turns = false := by simp [Turn.triggers, hturn, hgiven]
      have hinitialized : turn.notification ≠ .initialized := by
        rw [hturn]
        exact Notification.noConfusion
      rw [Notification.task, hlast, finish_finished]
      exact hseeing.rest hgiven hinitialized hclosed htriggers
    | some text =>
      have htext : turn.notification.text? = some (address, text, version) := by
        rw [hturn, Notification.text?, hlast, Option.map_some]
      rw [← hturn, Notification.task_of_text? htext]
      exact hseeing.edit htext hnames htexts turn.order
  | saved address => exact hseeing.save hturn hnames htexts turn.order
  | closed address => exact hseeing.close hturn turn.order

end Server

end VbaLint.Editor
