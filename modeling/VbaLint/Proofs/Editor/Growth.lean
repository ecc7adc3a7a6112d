import VbaLint.Proofs.Editor.Steps
import VbaLint.Proofs.Pass.Offer

/-!
# Courses of sessions

Whatever the tasks of a session do, the version that is drawn last does not decrease, and each engine
keeps its number, its rules and its configuration and does not go back to an older result set. What is
seen of the steps of the tasks is listed in order.
-/

namespace VbaLint

/-! ## Engines -/

section Engine

variable {σ : Type}

/-- What an engine may become: it makes its passes as before, and what it shows is not older. -/
structure Engine.Becomes (earlier later : Engine σ) : Prop where
  catalog_eq : later.catalog = earlier.catalog
  config_eq : later.config = earlier.config
  notAfter : earlier.store.NotAfter later.store

namespace Engine

theorem Becomes.refl (engine : Engine σ) : engine.Becomes engine := ⟨rfl, rfl, .refl engine.store⟩

theorem Becomes.trans {first second third : Engine σ} (h : first.Becomes second)
    (h' : second.Becomes third) : first.Becomes third where
  catalog_eq := h'.catalog_eq.trans h.catalog_eq
  config_eq := h'.config_eq.trans h.config_eq
  notAfter := h.notAfter.trans h'.notAfter

theorem becomes_of_store_eq {earlier later : Engine σ} (hcatalog : later.catalog = earlier.catalog)
    (hconfig : later.config = earlier.config) (hstore : later.store = earlier.store) :
    earlier.Becomes later :=
  ⟨hcatalog, hconfig, hstore ▸ .refl later.store⟩

theorem becomes_replaceInflight (engine : Engine σ) : engine.Becomes engine.replaceInflight := by
  unfold replaceInflight
  cases engine.inflight <;> exact becomes_of_store_eq rfl rfl rfl

theorem becomes_checkoutRunner (engine : Engine σ) : engine.Becomes engine.checkoutRunner.2 := by
  unfold checkoutRunner
  split <;> exact becomes_of_store_eq rfl rfl rfl

theorem becomes_begin (engine : Engine σ) (snapshot : Snapshot) :
    engine.Becomes (engine.begin snapshot).2 :=
  engine.becomes_replaceInflight.trans engine.replaceInflight.becomes_checkoutRunner

theorem becomes_run (engine : Engine σ) (pass : PendingPass σ) :
    engine.Becomes (engine.run pass).2 := by
  unfold run runIn
  dsimp only
  split <;> exact becomes_of_store_eq rfl rfl rfl

/-- An engine that completes a pass makes its passes as before, and what it shows is not older. -/
theorem becomes_complete (engine : Engine σ) (pass : CompletedPass σ) :
    engine.Becomes (engine.complete pass).2 := by
  have hkept : (engine.complete pass).2.catalog = engine.catalog ∧
      (engine.complete pass).2.config = engine.config := by
    unfold complete
    cases pass.outcome with
    | ok set => exact ⟨rfl, rfl⟩
    | error failure => cases failure <;> exact ⟨rfl, rfl⟩
  exact ⟨hkept.1, hkept.2, (engine.complete_offer pass).notAfter⟩

end Engine

end Engine

namespace Editor

/-! ## Servers -/

namespace Server

/-- What a server may become. -/
structure Grows (earlier later : Server) : Prop where
  version_le : earlier.version ≤ later.version
  engine {number : Nat} {engine : Engine Collector} : earlier.engines[number]? = some engine →
    ∃ successor, later.engines[number]? = some successor ∧ engine.Becomes successor

theorem Grows.refl (server : Server) : server.Grows server :=
  ⟨Nat.le_refl _, fun {_ engine} h ↦ ⟨engine, h, .refl engine⟩⟩

theorem Grows.trans {first second third : Server} (h : first.Grows second)
    (h' : second.Grows third) : first.Grows third := by
  refine ⟨Nat.le_trans h.version_le h'.version_le, ?_⟩
  intro number engine hengine
  obtain ⟨later, hlater, hbecomes⟩ := h.engine hengine
  obtain ⟨last, hlast, hbecomes'⟩ := h'.engine hlater
  exact ⟨last, hlast, hbecomes.trans hbecomes'⟩

theorem Grows.lt_size {server later : Server} (h : server.Grows later) {number : Nat}
    (hlt : number < server.engines.size) : number < later.engines.size := by
  obtain ⟨engine, hengine, -⟩ := h.engine (Array.getElem?_eq_getElem hlt)
  exact (Array.getElem?_eq_some_iff.1 hengine).1

variable {server later : Server}

/-- A server whose engines stay the same grows. -/
theorem grows_of_engines_eq (hversion : server.version ≤ later.version)
    (hengines : later.engines = server.engines) : server.Grows later :=
  ⟨hversion, fun {_ engine} h ↦ ⟨engine, hengines ▸ h, .refl engine⟩⟩

/-- The other engines stay as they are. -/
theorem getElem?_setEngine {number : Nat} {engine successor : Engine Collector}
    (hengine : server.engines[number]? = some engine) (other : Nat) :
    (server.setEngine number successor).engines[other]? =
      if number = other then some successor else server.engines[other]? := by
  have hlt : number < server.engines.size := (Array.getElem?_eq_some_iff.1 hengine).1
  rw [setEngine, Array.set!_eq_setIfInBounds, Array.getElem?_setIfInBounds, if_pos hlt]

/-- A server in which one engine is replaced by what it became grows. -/
theorem grows_setEngine {number : Nat} {engine successor : Engine Collector}
    (hengine : server.engines[number]? = some engine) (hbecomes : engine.Becomes successor) :
    server.Grows (server.setEngine number successor) := by
  refine ⟨Nat.le_refl _, ?_⟩
  intro other known hknown
  rw [getElem?_setEngine hengine]
  split
  · next heq =>
    rw [← heq, hengine] at hknown
    cases hknown
    exact ⟨successor, rfl, hbecomes⟩
  · exact ⟨known, hknown, .refl known⟩

/-- Whatever a task does next, the server grows. -/
theorem grows_step (server : Server) (order : List Nat) (task : Task) :
    server.Grows (server.step order task).server := by
  have hstep := server.stepsTo_step order task
  generalize server.step order task = result at hstep ⊢
  cases hstep with
  | installs config =>
    refine ⟨Nat.le_refl _, ?_⟩
    intro number engine hengine
    have hlt : number < server.engines.size := (Array.getElem?_eq_some_iff.1 hengine).1
    refine ⟨engine, ?_, .refl engine⟩
    dsimp only
    rw [Array.getElem?_push_lt hlt, ← hengine, Array.getElem?_eq_getElem hlt]
  | draws => exact grows_of_engines_eq (Nat.le_succ server.version) rfl
  | @begins plan engine found _ =>
    have hgrows := grows_setEngine found (engine.becomes_begin
      (plan.assembly.buildCached plan.version server.cache).1)
    exact ⟨hgrows.version_le, hgrows.engine⟩
  | @runs _ pass engine found => exact grows_setEngine found (engine.becomes_run pass)
  | @publishes _ pass engine _ found _ => exact grows_setEngine found (engine.becomes_complete pass)
  | @drops _ pass engine _ found _ => exact grows_setEngine found (engine.becomes_complete pass)
  | _ => exact grows_of_engines_eq (Nat.le_refl _) rfl

end Server

/-! ## Sessions -/

namespace Session

theorem run_append (session : Session) (happenings more : List Happening) :
    session.run (happenings ++ more) = (session.run happenings).run more :=
  List.foldl_append

theorem getElem?_of_ready? {session : Session} {number : Nat} {task : Task}
    (h : session.ready? number = some task) : session.tasks[number]? = some task :=
  (Option.filter_eq_some_iff.1 h).1

/-- A task that waits for another one to send is not ready. -/
theorem holdsBack_of_ready? {session : Session} {number : Nat} {task : Task}
    (h : session.ready? number = some task) : session.server.holdsBack task = false := by
  have hready := (Option.filter_eq_some_iff.1 h).2
  rwa [Bool.not_eq_true'] at hready

/-- The task is replaced by what it does next, and what it sends is kept. -/
theorem advance_eq {session : Session} {number : Nat} {task : Task}
    (h : session.ready? number = some task) (order : List Nat) :
    session.advance number order =
      { server := (session.server.step order task).server
        tasks := session.tasks.setIfInBounds number (session.server.step order task).next
        sent := session.sent ++ (session.server.step order task).sent } := by
  unfold advance
  rw [h]

/-- A task that is not ready stays where it is. -/
theorem advance_of_none {session : Session} {number : Nat} (h : session.ready? number = none)
    (order : List Nat) : session.advance number order = session := by
  unfold advance
  rw [h]

theorem getElem?_advance {session : Session} {number : Nat} {task : Task}
    (h : session.ready? number = some task) (order : List Nat) :
    (session.advance number order).tasks[number]? = some (session.server.step order task).next := by
  have hlt : number < session.tasks.size :=
    (Array.getElem?_eq_some_iff.1 (getElem?_of_ready? h)).1
  rw [advance_eq h]
  exact Array.getElem?_setIfInBounds_self_of_lt hlt

/-- After a task advanced, it has its next step before it, and the others have what they had. -/
theorem of_getElem?_advance {session : Session} {number other : Nat} {task known : Task}
    {order : List Nat} (htask : session.ready? number = some task)
    (hknown : (session.advance number order).tasks[other]? = some known) :
    (other = number ∧ known = (session.server.step order task).next) ∨
      (other ≠ number ∧ session.tasks[other]? = some known) := by
  rw [advance_eq htask, Array.getElem?_setIfInBounds] at hknown
  split at hknown
  · next heq =>
    obtain ⟨-, hnext⟩ := Option.ite_none_right_eq_some.1 hknown
    exact .inl ⟨heq.symm, (Option.some.inj hnext).symm⟩
  · next hne => exact .inr ⟨fun heq ↦ hne heq.symm, hknown⟩

theorem server_advance {session : Session} {number : Nat} {task : Task}
    (h : session.ready? number = some task) (order : List Nat) :
    (session.advance number order).server = (session.server.step order task).server := by
  rw [advance_eq h]

/-- Engines are added and never replaced, whatever happens. -/
theorem grows_happen (session : Session) (happening : Happening) :
    session.server.Grows (session.happen happening).server := by
  cases happening with
  | arrives notification => exact .refl session.server
  | advances number order =>
    rw [happen]
    cases htask : session.ready? number with
    | none =>
      rw [advance_of_none htask]
      exact .refl session.server
    | some task =>
      rw [advance_eq htask]
      exact session.server.grows_step order task

/-- Whatever happens in a session, the server grows. -/
theorem grows_run (session : Session) (happenings : List Happening) :
    session.server.Grows (session.run happenings).server := by
  induction happenings generalizing session with
  | nil => exact .refl session.server
  | cons happening rest ih => exact (session.grows_happen happening).trans (ih _)

/-! ### What is seen on the way -/

variable {α : Type}

/-- What is seen of a task that is about to advance, as something happens. -/
def seen? (look : Server → List Nat → Task → Option α) (session : Session) : Happening → Option α
  | .arrives _ => none
  | .advances number order => (session.ready? number).bind (look session.server order)

/-- What is seen of the tasks that advance, in order. -/
def seen (look : Server → List Nat → Task → Option α) (session : Session) : List Happening → List α
  | [] => []
  | happening :: rest =>
    (session.seen? look happening).toList ++ (session.happen happening).seen look rest

/-- What is seen in two parts of a history is seen one after the other. -/
theorem seen_append (look : Server → List Nat → Task → Option α) (session : Session)
    (happenings more : List Happening) :
    session.seen look (happenings ++ more) =
      session.seen look happenings ++ (session.run happenings).seen look more := by
  induction happenings generalizing session with
  | nil => rfl
  | cons happening rest ih =>
    rw [List.cons_append, seen, seen, ih, List.append_assoc]
    rfl

/-- Whatever is seen is seen at some happening of the history. -/
theorem exists_of_mem_seen {look : Server → List Nat → Task → Option α} {session : Session}
    {happenings : List Happening} {sight : α} (h : sight ∈ session.seen look happenings) :
    ∃ before happening after, happenings = before ++ happening :: after ∧
      (session.run before).seen? look happening = some sight := by
  induction happenings generalizing session with
  | nil => cases h
  | cons happening rest ih =>
    rcases List.mem_append.1 h with hnow | hlater
    · exact ⟨[], happening, rest, rfl, Option.mem_toList.1 hnow⟩
    · obtain ⟨before, next, after, rfl, hsight⟩ := ih hlater
      exact ⟨happening :: before, next, after, rfl, hsight⟩

end Session

end Editor

end VbaLint
