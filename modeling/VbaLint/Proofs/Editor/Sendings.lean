import VbaLint.Proofs.Editor.Passes

/-!
# The diagnostics that a session sends

Diagnostics are sent only by a task whose pass was completed, and only while the engine of that pass
shows its result set. So diagnostics from one engine are sent in the order of their versions. Nothing
holds back those of an engine that was replaced.
-/

namespace VbaLint.Editor

/-- The versions of the snapshots that the diagnostics of a message were computed from. -/
def Message.versions : Message → List Nat
  | .log .. => []
  | .diagnostics _ shown _ => shown.map (·.snapshotVersion)

namespace Session

abbrev sendings (session : Session) (happenings : List Happening) : List Sending :=
  session.seen Server.sending? happenings

end Session

/-! ## Messages and result sets -/

def Message.isShowing : Message → Bool
  | .log .. => false
  | .diagnostics _ shown _ => !shown.isEmpty

theorem Message.IsLog.isShowing_eq_false {message : Message} (h : message.IsLog) :
    message.isShowing = false := by
  cases message with
  | log => rfl
  | diagnostics => exact h.elim

/-- The diagnostics among the messages for a result set are those of an open document. -/
theorem Server.of_diagnostics_mem_messages {order : List Nat} {plan : PassPlan} {set : ResultSet}
    {address : String} {shown : List Diagnostic} {version : Option Int}
    (h : .diagnostics address shown version ∈ messages order plan set) :
    ∃ document, (address, document) ∈ plan.documents.opened ∧
      shown = diagnosticsOf plan.documents.opened set address := by
  rcases List.mem_append.1 h with hfault | hlocated
  · obtain ⟨fault, -, hlog⟩ := List.mem_map.1 hfault
    cases hlog
  · obtain ⟨located, hopened, heq⟩ := List.mem_map.1 hlocated
    cases heq
    exact ⟨located.2, (Documents.inOrder_perm _ order).mem_iff.1 hopened, rfl⟩

/-- The messages that the task has the right to send, and has not sent yet. -/
def Task.undelivered : Task → List Message
  | .deliver messages => messages
  | _ => []

theorem Task.undelivered_eq_nil {task : Task} (h : task.isDelivering = false) : task.undelivered = [] := by
  cases task <;> first | rfl | cases h

/-- A step sends no diagnostics but those of a result set: what the task still has to send, and the
messages of a result set that it begins to send, is sent now or remains to be sent. -/
theorem Server.showing_sent_step (server : Server) (order : List Nat) (task : Task) :
    (task.undelivered ++ (server.sending? order task).toList.flatMap Sending.messages).filter
        Message.isShowing =
      ((server.step order task).sent ++ (server.step order task).next.undelivered).filter
        Message.isShowing := by
  have hstep := server.stepsTo_step order task
  generalize server.step order task = result at hstep ⊢
  have hlogs {sent : List Message} (h : ∀ message ∈ sent, message.IsLog) :
      sent.filter Message.isShowing = [] := by
    apply List.filter_eq_nil_iff.2
    intro message hmessage
    rw [(h message hmessage).isShowing_eq_false]
    exact Bool.false_ne_true
  cases hstep with
  | rests _ sending plain logs idle =>
    rw [sending, Task.undelivered_eq_nil plain, Task.undelivered_eq_nil idle.isDelivering_eq_false,
      List.append_nil, hlogs logs]
    rfl
  | drops _ logs => simp [Task.undelivered, sending?, hlogs logs]
  | delivers message messages => simp [Task.undelivered, sending?]
  | claims sending =>
    rw [sending, Option.toList_some, List.flatMap_singleton]
    rfl
  | _ => rfl

namespace Session

variable {session : Session} {number : Nat} {task : Task}

/-- The messages that tasks have the right to send, and have not sent yet. -/
def undelivered (session : Session) : List Message := session.tasks.toList.flatMap Task.undelivered

theorem undelivered_start (session : Session) (notification : Notification) :
    (session.start notification).undelivered = session.undelivered := by
  have hnone : notification.task.undelivered = [] := by
    cases notification with
    | changed address texts version =>
      rw [Notification.task]
      split <;> rfl
    | _ => rfl
  rw [undelivered, start, Array.toList_push, List.flatMap_append, List.flatMap_singleton, hnone,
    List.append_nil]
  rfl

/-- When a task advances, what the others still have to send remains. -/
theorem exists_undelivered_advance (htask : session.ready? number = some task) (order : List Nat) :
    ∃ front rest, session.undelivered = front ++ task.undelivered ++ rest ∧
      (session.advance number order).undelivered =
        front ++ (session.server.step order task).next.undelivered ++ rest ∧
      ((∀ other known, other ≠ number → session.tasks[other]? = some known → known.undelivered = []) →
        front = [] ∧ rest = []) := by
  obtain ⟨hlt, hget⟩ := Array.getElem?_eq_some_iff.1 (getElem?_of_ready? htask)
  have hlength : number < session.tasks.toList.length := hlt
  have hsplit : session.tasks.toList =
      session.tasks.toList.take number ++ task :: session.tasks.toList.drop (number + 1) := by
    rw [← hget, ← Array.getElem_toList, ← List.drop_eq_getElem_cons, List.take_append_drop]
  refine ⟨(session.tasks.toList.take number).flatMap Task.undelivered,
    (session.tasks.toList.drop (number + 1)).flatMap Task.undelivered, ?_, ?_, fun hothers ↦ ?_⟩
  · refine (congrArg (List.flatMap Task.undelivered) hsplit).trans ?_
    simp
  · rw [undelivered, advance_eq htask, Array.toList_setIfInBounds, List.set_eq_take_append_cons_drop,
      if_pos hlength]
    simp
  · constructor
    · refine List.flatMap_eq_nil_iff.2 fun known hknown ↦ ?_
      obtain ⟨other, hother, heq⟩ := List.mem_take_iff_getElem.1 hknown
      refine hothers other known (by omega) ?_
      rw [← heq, ← Array.getElem?_toList, List.getElem?_eq_getElem]
    · refine List.flatMap_eq_nil_iff.2 fun known hknown ↦ ?_
      obtain ⟨other, hother, heq⟩ := List.mem_drop_iff_getElem.1 hknown
      refine hothers (number + 1 + other) known (by omega) ?_
      rw [← heq, ← Array.getElem?_toList, List.getElem?_eq_getElem]

theorem exists_sent_happen (session : Session) (happening : Happening) :
    ∃ later, (session.happen happening).sent = session.sent ++ later ∧
      ((session.undelivered ++
        (session.seen? Server.sending? happening).toList.flatMap Sending.messages).filter
          Message.isShowing).Perm
        ((later ++ (session.happen happening).undelivered).filter Message.isShowing) := by
  cases happening with
  | arrives notification =>
    refine ⟨[], (List.append_nil _).symm, ?_⟩
    rw [seen?, happen, undelivered_start]
    simp
  | advances number order =>
    rw [happen, seen?]
    cases htask : session.ready? number with
    | none =>
      rw [advance_of_none htask]
      exact ⟨[], (List.append_nil _).symm, by simp⟩
    | some task =>
      obtain ⟨front, rest, hbefore, hafter, -⟩ := exists_undelivered_advance htask order
      refine ⟨(session.server.step order task).sent, congrArg Session.sent (advance_eq htask order), ?_⟩
      have hshown := session.server.showing_sent_step order task
      rw [hbefore, hafter, Option.bind_some, List.perm_iff_count]
      intro message
      have hcount := congrArg (List.count message) hshown
      simp only [List.filter_append, List.count_append] at hcount ⊢
      omega

/-- The messages with diagnostics are those of the result sets that are sent, in some order. -/
theorem exists_sent_run (session : Session) (happenings : List Happening) :
    ∃ later, (session.run happenings).sent = session.sent ++ later ∧
      ((session.undelivered ++ (session.sendings happenings).flatMap Sending.messages).filter
          Message.isShowing).Perm
        ((later ++ (session.run happenings).undelivered).filter Message.isShowing) := by
  induction happenings generalizing session with
  | nil => exact ⟨[], (List.append_nil _).symm, by simp [sendings, seen, run]⟩
  | cons happening rest ih =>
    obtain ⟨first, hfirst, hshown⟩ := session.exists_sent_happen happening
    obtain ⟨later, hlater, hshown'⟩ := ih (session.happen happening)
    refine ⟨first ++ later, ?_, ?_⟩
    · rw [← List.append_assoc, ← hfirst]
      exact hlater
    · rw [sendings, seen, List.flatMap_append]
      rw [List.perm_iff_count] at hshown hshown' ⊢
      intro message
      have hcount := hshown message
      have hcount' := hshown' message
      simp only [sendings, List.filter_append, List.count_append] at hcount hcount' ⊢
      change _ = _ + List.count message
        (((session.happen happening).run rest).undelivered.filter Message.isShowing)
      omega

end Session

/-! ## The right to send -/

namespace Server

variable {server : Server} {task : Task}

/-- A task that does not have the right to send does not give it back. -/
theorem isSending_of_step (hplain : task.isDelivering = false) (h : server.isSending = true)
    (order : List Nat) : (server.step order task).server.isSending = true := by
  have hstep := server.stepsTo_step order task
  generalize server.step order task = result at hstep ⊢
  cases hstep with
  | releases => cases hplain
  | claims => rfl
  | _ => exact h

/-- A task has the right to send because it had it before, or it takes it while nobody has it. -/
theorem isDelivering_next_step (hready : server.holdsBack task = false) {order : List Nat}
    (h : (server.step order task).next.isDelivering = true) :
    task.isDelivering = true ∧ (server.step order task).server = server ∨
      server.isSending = false ∧ (server.step order task).server.isSending = true := by
  have hstep := server.stepsTo_step order task
  generalize server.step order task = result at hstep h ⊢
  cases hstep with
  | rests _ _ _ _ idle => cases idle.isDelivering_eq_false.symm.trans h
  | claims => exact .inr ⟨hready, rfl⟩
  | delivers => exact .inl ⟨rfl, rfl⟩
  | _ => cases h

end Server

namespace Session

variable {session : Session} {number : Nat} {task : Task}

/-- At most one task has the right to send, and if one has it the others have to wait. -/
structure SendsInTurn (session : Session) : Prop where
  sole {number other : Nat} {task known : Task} : session.tasks[number]? = some task →
    session.tasks[other]? = some known → task.isDelivering = true → known.isDelivering = true →
      number = other
  isSending {number : Nat} {task : Task} : session.tasks[number]? = some task →
    task.isDelivering = true → session.server.isSending = true

theorem sendsInTurn_new (server : Server) : (Session.new server).SendsInTurn :=
  ⟨fun htask ↦ by simp [Session.new] at htask, fun htask ↦ by simp [Session.new] at htask⟩

/-- A notification that comes in gives nobody the right to send. -/
theorem SendsInTurn.start (h : session.SendsInTurn) (notification : Notification) :
    (session.start notification).SendsInTurn := by
  have hold {number : Nat} {task : Task}
      (htask : (session.start notification).tasks[number]? = some task)
      (hdelivers : task.isDelivering = true) : session.tasks[number]? = some task := by
    simp only [Session.start, Array.getElem?_push] at htask
    split at htask
    · cases htask
      cases notification.isDelivering_task.symm.trans hdelivers
    · exact htask
  refine ⟨fun htask hknown hdelivers hdelivers' ↦ ?_, fun htask hdelivers ↦ ?_⟩
  · exact h.sole (hold htask hdelivers) (hold hknown hdelivers') hdelivers hdelivers'
  · exact h.isSending (hold htask hdelivers) hdelivers

/-- A task that advances takes the right to send only if nobody has it. -/
theorem SendsInTurn.advance (h : session.SendsInTurn) (htask : session.ready? number = some task)
    (order : List Nat) : (session.advance number order).SendsInTurn := by
  have hholds := getElem?_of_ready? htask
  have hready := holdsBack_of_ready? htask
  -- A task that has the right to send now had it before, or nobody had it.
  have hnext {other : Nat} {known : Task} (hother : other ≠ number)
      (hknown : session.tasks[other]? = some known) (hdelivers : known.isDelivering = true) :
      (session.server.step order task).next.isDelivering ≠ true := by
    intro hmoved
    rcases Server.isDelivering_next_step hready hmoved with ⟨hbefore, -⟩ | ⟨hfree, -⟩
    · exact hother (h.sole hknown hholds hdelivers hbefore)
    · cases hfree.symm.trans (h.isSending hknown hdelivers)
  constructor
  · intro first second known known' hfirst hsecond hdelivers hdelivers'
    rcases of_getElem?_advance htask hfirst with ⟨heq, rfl⟩ | ⟨hne, hold⟩ <;>
      rcases of_getElem?_advance htask hsecond with ⟨heq', rfl⟩ | ⟨hne', hold'⟩
    · exact heq.trans heq'.symm
    · exact absurd hdelivers (hnext hne' hold' hdelivers')
    · exact absurd hdelivers' (hnext hne hold hdelivers)
    · exact h.sole hold hold' hdelivers hdelivers'
  · intro other known hknown hdelivers
    rw [server_advance htask]
    rcases of_getElem?_advance htask hknown with ⟨-, rfl⟩ | ⟨hne, hold⟩
    · rcases Server.isDelivering_next_step hready hdelivers with ⟨hbefore, hserver⟩ | ⟨-, hclaimed⟩
      · rw [hserver]
        exact h.isSending hholds hbefore
      · exact hclaimed
    · refine Server.isSending_of_step ?_ (h.isSending hold hdelivers) order
      exact Bool.eq_false_iff.2 fun hbefore ↦ hne (h.sole hold hholds hdelivers hbefore)

/-- At most one task has the right to send, whatever happens. -/
theorem SendsInTurn.happen (h : session.SendsInTurn) (happening : Happening) :
    (session.happen happening).SendsInTurn := by
  cases happening with
  | arrives notification => exact h.start notification
  | advances number order =>
    rw [Session.happen]
    cases htask : session.ready? number with
    | none =>
      rw [advance_of_none htask]
      exact h
    | some task => exact h.advance htask order

/-- Where one task at a time has the right to send, its messages are sent before those of the next. -/
theorem SendsInTurn.sent_advance (h : session.SendsInTurn) (htask : session.ready? number = some task)
    (order : List Nat) :
    (session.undelivered ++
        (session.server.sending? order task).toList.flatMap Sending.messages).filter Message.isShowing =
      ((session.server.step order task).sent ++ (session.advance number order).undelivered).filter
        Message.isShowing := by
  obtain ⟨front, rest, hbefore, hafter, hsole⟩ := exists_undelivered_advance htask order
  have hshown := session.server.showing_sent_step order task
  have hholds := getElem?_of_ready? htask
  by_cases hconcerned : task.isDelivering = true ∨ (session.server.sending? order task).isSome = true
  · have hothers : ∀ other known, other ≠ number → session.tasks[other]? = some known →
        known.undelivered = [] := by
      intro other known hne hknown
      refine Task.undelivered_eq_nil (Bool.eq_false_iff.2 fun hdelivers ↦ ?_)
      rcases hconcerned with hdelivering | hsending
      · exact hne (h.sole hknown hholds hdelivers hdelivering)
      · obtain ⟨sending, hsending⟩ := Option.isSome_iff_exists.1 hsending
        obtain ⟨rfl, -⟩ := Server.sending?_eq_some hsending
        cases (holdsBack_of_ready? htask).symm.trans (h.isSending hknown hdelivers)
    obtain ⟨rfl, rfl⟩ := hsole hothers
    rw [hbefore, hafter, List.nil_append, List.nil_append, List.append_nil, List.append_nil]
    exact hshown
  · obtain ⟨hplain, hnone⟩ := not_or.1 hconcerned
    rw [Task.undelivered_eq_nil (Bool.eq_false_iff.2 hplain)] at hshown hbefore
    rw [Option.not_isSome_iff_eq_none.1 hnone] at hshown ⊢
    obtain ⟨hsent, hnext⟩ := List.append_eq_nil_iff.1 (List.filter_append .. ▸ hshown.symm)
    simp [hbefore, hafter, hsent, hnext]

theorem SendsInTurn.sent_happen (h : session.SendsInTurn) (happening : Happening) :
    ∃ later, (session.happen happening).sent = session.sent ++ later ∧
      (session.undelivered ++
          (session.seen? Server.sending? happening).toList.flatMap Sending.messages).filter
            Message.isShowing =
        (later ++ (session.happen happening).undelivered).filter Message.isShowing := by
  cases happening with
  | arrives notification =>
    refine ⟨[], (List.append_nil _).symm, ?_⟩
    rw [seen?, Session.happen, undelivered_start, Option.toList_none, List.flatMap_nil,
      List.append_nil, List.nil_append]
  | advances number order =>
    rw [Session.happen, seen?]
    cases htask : session.ready? number with
    | none =>
      rw [advance_of_none htask]
      exact ⟨[], (List.append_nil _).symm, by simp⟩
    | some task =>
      exact ⟨_, congrArg Session.sent (advance_eq htask order), h.sent_advance htask order⟩

/-- The messages with diagnostics are those of the result sets that are sent, one set after another. -/
theorem SendsInTurn.sent_run (h : session.SendsInTurn) (happenings : List Happening) :
    ∃ later, (session.run happenings).sent = session.sent ++ later ∧
      (session.undelivered ++ (session.sendings happenings).flatMap Sending.messages).filter
          Message.isShowing =
        (later ++ (session.run happenings).undelivered).filter Message.isShowing := by
  induction happenings generalizing session with
  | nil => exact ⟨[], (List.append_nil _).symm, by simp [sendings, seen, run]⟩
  | cons happening rest ih =>
    obtain ⟨first, hfirst, hshown⟩ := h.sent_happen happening
    obtain ⟨later, hlater, hshown'⟩ := ih (h.happen happening)
    refine ⟨first ++ later, ?_, ?_⟩
    · rw [← List.append_assoc, ← hfirst]
      exact hlater
    · rw [sendings, seen, List.flatMap_append, ← List.append_assoc, List.filter_append, hshown,
        List.filter_append, List.append_assoc, ← List.filter_append, hshown', ← List.filter_append,
        ← List.append_assoc]
      rfl

end Session

/-! ## The order of result sets -/

/-- The result set is what a new runner with the configuration of its engine finds in the snapshot of
its pass, and its engine shows that version. -/
def Sending.Fits (sending : Sending) (server : Server) (log : List PassPlan) : Prop :=
  ∃ engine, server.engines[sending.plan.engine]? = some engine ∧
    engine.store.version? = some sending.plan.version ∧
    ∃ snapshot, sending.plan.BegunOver log snapshot ∧
      sending.set = Runner.builtInSet engine.config snapshot

theorem Session.Records.fits_sending {session : Session} {log : List PassPlan}
    (h : session.Records log) {happening : Happening} {sending : Sending}
    (hsending : session.seen? Server.sending? happening = some sending) :
    sending.Fits session.server log := by
  cases happening with
  | arrives notification => cases hsending
  | advances number order =>
    obtain ⟨task, htask, htold⟩ := Option.bind_eq_some_iff.1 hsending
    obtain ⟨rfl, -, hshown⟩ := Server.sending?_eq_some htold
    obtain ⟨engine, hengine, snapshot, hbegun, hset⟩ := (h.fits (getElem?_of_ready? htask)).carries
    refine ⟨engine, hengine, ?_, snapshot, hbegun, hset⟩
    rw [hengine, Option.bind_some, hset] at hshown
    rw [hshown, Runner.snapshotVersion_builtInSet, hbegun.version_eq]

namespace Sending.Fits

variable {server later : Server} {log more : List PassPlan} {sending next : Sending}

theorem versions_eq (h : sending.Fits server log) :
    ∀ version ∈ sending.messages.flatMap Message.versions, version = sending.plan.version := by
  obtain ⟨engine, -, -, snapshot, hbegun, hset⟩ := h
  intro version hversion
  obtain ⟨message, hmessage, hmem⟩ := List.mem_flatMap.1 hversion
  cases message with
  | log => cases hmem
  | diagnostics =>
    obtain ⟨document, -, rfl⟩ := Server.of_diagnostics_mem_messages hmessage
    obtain ⟨diagnostic, hdiagnostic, rfl⟩ := List.mem_map.1 hmem
    obtain ⟨finding, hfinding, rfl⟩ := List.mem_map.1 hdiagnostic
    rw [hset] at hfinding
    have hlies := Runner.liesIn_builtInSet (List.mem_filter.1 hfinding).1
    exact hlies.version.trans hbegun.version_eq

/-- Of two result sets that are sent one after the other, the later has the later version unless its
engine was replaced by that of the earlier. -/
theorem version_le_iff (h : sending.Fits server log) (hgrows : server.Grows later)
    (hrecords : later.Records (log ++ more)) (hnext : next.Fits later (log ++ more)) :
    sending.plan.version ≤ next.plan.version ↔ sending.plan.engine ≤ next.plan.engine := by
  obtain ⟨engine, hengine, hshown, _, hbegun, -⟩ := h
  obtain ⟨engine', hengine', hshown', _, hbegun', -⟩ := hnext
  -- One engine never shows an older version again; between two engines the record decides.
  by_cases hsame : sending.plan.engine = next.plan.engine
  · obtain ⟨successor, hsuccessor, hbecomes⟩ := hgrows.engine hengine
    rw [hsame, hengine'] at hsuccessor
    cases hsuccessor
    obtain ⟨version, hversion, hle⟩ := hbecomes.notAfter _ hshown
    rw [hshown'] at hversion
    cases hversion
    exact iff_of_true hle (Nat.le_of_eq hsame)
  · have hne : sending.plan ≠ next.plan := fun heq ↦ hsame (congrArg PassPlan.engine heq)
    have hmem := (hbegun.append more).mem
    rcases hrecords.before_or_after hmem hbegun'.mem hne with ⟨hversion, hle⟩ | ⟨hversion, hle⟩
    · exact iff_of_true (Nat.le_of_lt hversion) hle
    · omega

end Sending.Fits

namespace Session

theorem Records.sendings_ordered {session : Session} {log : List PassPlan}
    (h : session.Records log) (happenings : List Happening) :
    (session.sendings happenings).Pairwise fun earlier later ↦
      earlier.plan.version ≤ later.plan.version ↔ earlier.plan.engine ≤ later.plan.engine := by
  induction happenings generalizing session log with
  | nil => exact .nil
  | cons happening rest ih =>
    rw [sendings, seen, List.pairwise_append]
    refine ⟨?_, ih (h.happen happening), ?_⟩
    · cases session.seen? Server.sending? happening with
      | none => exact .nil
      | some sending => exact List.pairwise_singleton _ _
    · intro sending hsending later hlater
      have hfits := h.fits_sending (Option.mem_toList.1 hsending)
      obtain ⟨before, next, _, -, hnext⟩ := exists_of_mem_seen hlater
      have hgrows := (session.grows_happen happening).trans
        ((session.happen happening).grows_run before)
      have hrecords := (h.happen happening).run before
      rw [List.append_assoc] at hrecords
      exact hfits.version_le_iff hgrows hrecords.server (hrecords.fits_sending hnext)

/-- All diagnostics, those that a task is still to send included, are those of the result sets that begin
to be sent, one set after another, and carry the version of their passes. Of two such sets the later has
the later version, unless its engine was already replaced by the engine of the earlier: the sets of one
engine come in the order of their versions, and an engine that was replaced may send its last set after
those of its successors. -/
theorem sent_in_order_of_engines (host : Host) (workspace : Option Workspace) (project : String)
    (happenings : List Happening) :
    let session := Session.new (.new host workspace project)
    let sendings := session.sendings happenings
    ((session.run happenings).sent ++ (session.run happenings).undelivered).filter Message.isShowing =
        (sendings.flatMap Sending.messages).filter Message.isShowing ∧
      (∀ sending ∈ sendings, ∀ version ∈ sending.messages.flatMap Message.versions,
        version = sending.plan.version) ∧
      sendings.Pairwise fun earlier later ↦
        earlier.plan.version ≤ later.plan.version ↔ earlier.plan.engine ≤ later.plan.engine := by
  intro session sendings
  have hrecords := records_new host workspace project
  obtain ⟨later, hsent, hshown⟩ := (sendsInTurn_new _).sent_run happenings
  refine ⟨hsent ▸ hshown.symm, ?_, hrecords.sendings_ordered happenings⟩
  intro sending hsending
  obtain ⟨before, happening, _, -, hnext⟩ := exists_of_mem_seen hsending
  exact ((hrecords.run before).fits_sending hnext).versions_eq

/-! ### An engine that is overtaken -/

/-- A document is opened before the configuration of the workspace is read, and saved after. The pass
for the opened document is begun first and run last. -/
def overtaking (address text : String) (version : Int) : List Happening :=
  opening 0 address text version ++
    .arrives .initialized :: alone 1 1 ++ saving 2 address ++ alone 2 5 ++ alone 0 5

theorem sent_overtaking {host : Host} {workspace : Workspace} {project address text : String}
    {version : Int} {document : Document}
    (hconfig : loadConfigBy host.parseConfig? workspace.files workspace.root = .ok none)
    (hdocument : Server.openDocument? host address text version = some document)
    (hopened : document.isOpen = true) :
    let documents : Documents := [(address, document)]
    let first := (documents.assembly project).buildCached 1 .empty
    let second := (documents.assembly project).buildCached 2 first.2
    ((Session.new (.new host (some workspace) project)).run (overtaking address text version)).sent =
      Server.messages [] ⟨2, project, 1, documents⟩ (Runner.builtInSet .default second.1) ++
        Server.messages [] ⟨1, project, 0, documents⟩ (Runner.builtInSet .default first.1) := by
  intro documents first second
  have hcount : documents.opened.length = 1 := by
    simp [Documents.opened, documents, hopened]
  let engine : Engine Collector := .builtIn .default
  let earlier : PassPlan := ⟨1, project, 0, documents⟩
  let later : PassPlan := ⟨2, project, 1, documents⟩
  let pass := engine.begin first.1
  let pass' := engine.begin second.1
  have hkeeps : engine.KeepsRules .builtIn .default := Engine.keepsRules_new _ _
  let begun : Session :=
    { server :=
        { host, workspace := some workspace, project, documents, engines := #[pass.2], cache := first.2,
          version := 1, isSending := false }
      tasks := #[.run earlier pass.1]
      sent := [] }
  let installed : Session :=
    ⟨{ begun.server with engines := #[pass.2, engine] },
      #[.run earlier pass.1, .loadDocuments], []⟩
  have hinstalled : begun.run (.arrives .initialized :: alone 1 1) = installed := by
    change (begun.start .initialized).advance begun.tasks.size [] = installed
    rw [advance_start, Notification.task, Server.step, Server.loadConfig,
      show begun.server.workspace = some workspace from rfl]
    dsimp only
    rw [hconfig]
    rfl
  let both : Session :=
    ⟨{ installed.server with version := 2, cache := second.2, engines := #[pass.2, pass'.2] },
      #[.run earlier pass.1, .loadDocuments, .run later pass'.1], []⟩
  have hboth : installed.run (saving 2 address) = both := by
    have hknown : (installed.server.documents.find? address).isSome = true := by
      simp [installed, begun, documents, Documents.find?]
    have hengine : installed.server.engines[installed.server.engines.size - 1]? = some engine :=
      rfl
    exact run_saving rfl hknown hengine
  have hlaterTask : both.tasks[2]? = some (.run later pass'.1) := rfl
  obtain ⟨successor, hlater⟩ := run_begun rfl hlaterTask hkeeps rfl (Store.admits_empty _) hcount
  let overtaken : Session :=
    { server := { both.server with engines := #[pass.2, successor] }
      tasks := #[.run earlier pass.1, .loadDocuments, .finished]
      sent := both.sent ++ Server.messages [] later (Runner.builtInSet .default second.1) }
  have hovertaken : both.run (alone 2 5) = overtaken := hlater
  have hearlierTask : overtaken.tasks[0]? = some (.run earlier pass.1) := rfl
  -- The first engine has not heard of the later pass, so its own is neither cancelled nor stale.
  obtain ⟨successor', hearlier⟩ := run_begun rfl hearlierTask hkeeps rfl (Store.admits_empty _) hcount
  rw [overtaking, run_append, run_append, run_append, run_append,
    run_opening_new host (some workspace) project hdocument, hinstalled, hboth, hovertaken, hearlier]
  rfl

/-- The pass for the opened document has the first engine and the first version, and is sent last. -/
theorem older_diagnostics_follow_newer :
    ((Session.new (.new .plain (some ⟨"/w", fun _ ↦ none⟩) "P")).run
      (overtaking "file:///w/A.bas" "" 1)).sent.flatMap Message.versions = [2, 1] := by
  let document : Document := ⟨"A", .standardModule, "", true, some 1⟩
  let documents : Documents := [("file:///w/A.bas", document)]
  let assembly := documents.assembly "P"
  have hdocument : Server.openDocument? .plain "file:///w/A.bas" "" 1 = some document := by
    decide +kernel
  have hfirst : (assembly.buildCached 1 (.after [])).1 = assembly.snapshot 1 :=
    Assembly.buildCached_after (.of_text_eq "" (by decide +kernel))
  have hsecond : (assembly.buildCached 2 (.after [.build assembly 1])).1 = assembly.snapshot 2 :=
    Assembly.buildCached_after (.of_text_eq "" (by decide +kernel))
  have hversions : (Server.messages [] ⟨2, "P", 1, documents⟩
        (Runner.builtInSet .default (assembly.snapshot 2)) ++
      Server.messages [] ⟨1, "P", 0, documents⟩
        (Runner.builtInSet .default (assembly.snapshot 1))).flatMap Message.versions = [2, 1] := by
    decide +kernel
  rw [← hfirst, ← hsecond] at hversions
  rw [sent_overtaking rfl hdocument rfl]
  exact hversions

end Session

end VbaLint.Editor
