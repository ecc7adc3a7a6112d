import VbaLint.Proofs.Editor.Sendings

/-!
# Diagnostics of closed documents

A pass works on the documents as they were when its task read them. After a document is closed no pass
reads it as open until the editor gives its text again, so that nothing is found in it any more, except
by the passes that had read it before.
-/

namespace VbaLint.Editor

/-! ## Open documents -/

def Documents.HasOpen (documents : Documents) (address : String) : Prop :=
  ∃ document, (address, document) ∈ documents ∧ document.isOpen = true

namespace Documents

variable {documents fewer : Documents} {address other : String} {document : Document}

theorem HasOpen.mono (h : fewer.HasOpen address) (hsub : fewer ⊆ documents) :
    documents.HasOpen address := by
  obtain ⟨document, hmem, hopen⟩ := h
  exact ⟨document, hsub hmem, hopen⟩

theorem mem_put {located : Located} (h : located ∈ documents.put other document) :
    located = (other, document) ∨ located ∈ documents := by
  induction documents with
  | nil => exact .inl (List.mem_singleton.1 h)
  | cons first rest ih =>
    rw [put] at h
    split at h
    · rcases List.mem_cons.1 h with hput | hrest
      · exact .inl hput
      · exact .inr (List.mem_cons_of_mem _ hrest)
    · rcases List.mem_cons.1 h with hfirst | hrest
      · exact .inr (hfirst ▸ List.mem_cons_self)
      · exact (ih hrest).imp_right (List.mem_cons_of_mem _)

theorem hasOpen_put (h : (documents.put other document).HasOpen address)
    (hclosed : other = address → document.isOpen = false) : documents.HasOpen address := by
  obtain ⟨found, hmem, hopen⟩ := h
  rcases mem_put hmem with hput | hold
  · cases hput
    rw [hclosed rfl] at hopen
    cases hopen
  · exact ⟨found, hold, hopen⟩

theorem hasOpen_putNew (hclosed : document.isOpen = false)
    (h : (documents.putNew other document).HasOpen address) : documents.HasOpen address := by
  unfold putNew at h
  split at h
  · exact h
  · exact hasOpen_put h fun _ ↦ hclosed

/-- Components that are found on disk are not open. -/
theorem hasOpen_takeIn {host : Host} {component : LoadedComponent}
    (h : (Server.takeIn host documents component).HasOpen address) : documents.HasOpen address := by
  unfold Server.takeIn at h
  split at h
  · exact h
  · exact hasOpen_putNew rfl h

theorem hasOpen_foldl_takeIn {host : Host} {components : List LoadedComponent}
    (h : (components.foldl (Server.takeIn host) documents).HasOpen address) :
    documents.HasOpen address := by
  induction components generalizing documents with
  | nil => exact h
  | cons component rest ih => exact hasOpen_takeIn (ih h)

theorem not_hasOpen_close (documents : Documents) (address : String) :
    ¬ (documents.close address).HasOpen address := by
  rintro ⟨document, hmem, hopen⟩
  obtain ⟨located, -, heq⟩ := List.mem_map.1 hmem
  split at heq
  · cases heq
    cases hopen
  · next hne => exact hne (congrArg Prod.fst heq)

theorem hasOpen_close (h : (documents.close other).HasOpen address) :
    documents.HasOpen address := by
  obtain ⟨document, hmem, hopen⟩ := h
  obtain ⟨located, hlocated, heq⟩ := List.mem_map.1 hmem
  split at heq
  · cases heq
    cases hopen
  · exact ⟨document, heq ▸ hlocated, hopen⟩

end Documents

/-- The diagnostics of a result set are sent for the documents that its pass read as open. -/
theorem Sending.mem_messages_iff {sending : Sending} {address : String} :
    (∃ shown version, .diagnostics address shown version ∈ sending.messages) ↔
      sending.plan.documents.HasOpen address := by
  constructor
  · rintro ⟨shown, version, hmem⟩
    obtain ⟨document, hopened, -⟩ := Server.of_diagnostics_mem_messages hmem
    obtain ⟨hmem, hopen⟩ := List.mem_filter.1 hopened
    exact ⟨document, hmem, hopen⟩
  · rintro ⟨document, hmem, hopen⟩
    have hopened : (address, document) ∈ sending.plan.documents.opened :=
      List.mem_filter.2 ⟨hmem, hopen⟩
    have hlisted := (Documents.inOrder_perm _ sending.order).mem_iff.2 hopened
    exact ⟨_, _, List.mem_append_right _ (List.mem_map.2 ⟨_, hlisted, rfl⟩)⟩

/-! ## Steps -/

/-- The address for which the editor gave the text that the task takes in next. -/
def Task.edited? : Task → Option String
  | .edit address _ _ => some address
  | _ => none

/-- The plan of the task, once the documents are read. -/
def Task.plan? : Task → Option PassPlan
  | .build plan | .run plan _ | .complete plan _ | .send plan _ => some plan
  | _ => none

theorem Task.IsIdle.plan?_eq_none {task : Task} (h : task.IsIdle) : task.plan? = none := by
  cases task <;> cases h <;> rfl

theorem Task.IsIdle.edited?_eq_none {task : Task} (h : task.IsIdle) : task.edited? = none := by
  cases task <;> cases h <;> rfl

namespace Server

variable {server : Server} {order : List Nat} {task : Task} {address : String} {plan : PassPlan}

/-- No step opens a document but that of a task that takes in its text. -/
theorem hasOpen_step (h : (server.step order task).server.documents.HasOpen address)
    (hedit : task.edited? ≠ some address) : server.documents.HasOpen address := by
  have hstep := server.stepsTo_step order task
  generalize server.step order task = result at hstep h
  cases hstep with
  | edits other text version document =>
    apply Documents.hasOpen_put h
    rintro rfl
    cases hedit rfl
  | loads components => exact Documents.hasOpen_foldl_takeIn h
  | closes other => exact Documents.hasOpen_close h
  | _ => exact h

/-- A task keeps its plan from step to step, and makes it of documents that the server knows. -/
theorem plan?_next_step (h : (server.step order task).next.plan? = some plan) :
    task.plan? = some plan ∨ plan.documents ⊆ server.documents := by
  have hstep := server.stepsTo_step order task
  generalize server.step order task = result at hstep h
  cases hstep with
  | rests _ _ _ _ idle => cases idle.plan?_eq_none.symm.trans h
  | readsDocuments version project engine =>
    cases h
    exact .inr (Documents.inOrder_perm _ order).subset
  | begins => exact .inl h
  | runs => exact .inl h
  | publishes => exact .inl h
  | _ => cases h

/-- No task is left with a text from the editor to take in. -/
theorem edited?_next_step (server : Server) (order : List Nat) (task : Task) :
    (server.step order task).next.edited? = none := by
  have hstep := server.stepsTo_step order task
  generalize server.step order task = result at hstep ⊢
  cases hstep with
  | rests _ _ _ _ idle => exact idle.edited?_eq_none
  | _ => rfl

end Server

theorem Notification.plan?_task (notification : Notification) :
    notification.task.plan? = none := by
  cases notification with
  | changed address texts version =>
    rw [task]
    split <;> rfl
  | _ => rfl

/-! ## Sessions -/

namespace Session

variable {session closed : Session} {address : String} {happenings : List Happening}

/-- The addresses for which texts from the editor are taken in, in order. -/
abbrev edited (session : Session) (happenings : List Happening) : List String :=
  session.seen (fun _ _ ↦ Task.edited?) happenings

def Carries (session : Session) (plan : PassPlan) : Prop :=
  ∃ (number : Nat) (task : Task), session.tasks[number]? = some task ∧ task.plan? = some plan

/-- There is no open document at the address, and only plans that were carried before say that there
is. -/
structure ClosedSince (closed session : Session) (address : String) : Prop where
  not_hasOpen : ¬ session.server.documents.HasOpen address
  carried {plan : PassPlan} : session.Carries plan → plan.documents.HasOpen address →
    closed.Carries plan

theorem closedSince_refl (h : ¬ session.server.documents.HasOpen address) :
    session.ClosedSince session address :=
  ⟨h, fun hcarries _ ↦ hcarries⟩

/-- A notification that comes in does not open a document that was closed. -/
theorem ClosedSince.start (h : ClosedSince closed session address) (notification : Notification) :
    ClosedSince closed (session.start notification) address := by
  refine ⟨h.not_hasOpen, ?_⟩
  rintro plan ⟨number, task, htask, hplan⟩ hopen
  simp only [Session.start, Array.getElem?_push] at htask
  split at htask
  · cases htask
    cases notification.plan?_task.symm.trans hplan
  · exact h.carried ⟨number, task, htask, hplan⟩ hopen

/-- A task may advance without opening the document again, unless it takes in a text for it. -/
theorem ClosedSince.advance (h : ClosedSince closed session address) {number : Nat} {task : Task}
    (htask : session.ready? number = some task) (hedit : task.edited? ≠ some address)
    (order : List Nat) : ClosedSince closed (session.advance number order) address := by
  constructor
  · intro hopen
    rw [server_advance htask order] at hopen
    exact h.not_hasOpen (Server.hasOpen_step hopen hedit)
  · rintro plan ⟨other, known, hknown, hplan⟩ hopen
    -- A plan that says so was carried before, or would have to be read from the documents now.
    rcases of_getElem?_advance htask hknown with ⟨-, rfl⟩ | ⟨-, hold⟩
    · rcases Server.plan?_next_step hplan with hkept | hread
      · exact h.carried ⟨number, task, getElem?_of_ready? htask, hkept⟩ hopen
      · exact absurd (hopen.mono hread) h.not_hasOpen
    · exact h.carried ⟨other, known, hold, hplan⟩ hopen

/-- The document stays closed unless a text for it is taken in. -/
theorem ClosedSince.happen (h : ClosedSince closed session address) {happening : Happening}
    (hedit : session.seen? (fun _ _ ↦ Task.edited?) happening ≠ some address) :
    ClosedSince closed (session.happen happening) address := by
  cases happening with
  | arrives notification => exact h.start notification
  | advances number order =>
    rw [Session.happen]
    cases htask : session.ready? number with
    | none =>
      rw [advance_of_none htask]
      exact h
    | some task =>
      apply h.advance htask
      rwa [seen?, htask, Option.bind_some] at hedit

/-- Until the editor gives the text of a closed document again, no other task reads it as open. -/
theorem ClosedSince.run (h : ClosedSince closed session address)
    (hedited : address ∉ session.edited happenings) :
    ClosedSince closed (session.run happenings) address := by
  induction happenings generalizing session with
  | nil => exact h
  | cons happening rest ih =>
    rw [edited, seen, List.mem_append, not_or, Option.mem_toList] at hedited
    exact ih (h.happen hedited.1) hedited.2

/-- No task of the session is about to take in a text for the address. -/
def Leaves (session : Session) (address : String) : Prop :=
  ∀ (number : Nat) (task : Task), session.tasks[number]? = some task →
    task.edited? ≠ some address

/-- A document that is about to be closed stays so until the editor sends a text for it again. -/
theorem Leaves.happen (h : session.Leaves address) (happening : Happening)
    (harrives : ∀ notification, happening = .arrives notification →
      notification.task.edited? ≠ some address) : (session.happen happening).Leaves address := by
  intro other known hknown
  cases happening with
  | arrives notification =>
    simp only [Session.happen, start, Array.getElem?_push] at hknown
    split at hknown
    · cases hknown
      exact harrives notification rfl
    · exact h other known hknown
  | advances number order =>
    rw [Session.happen] at hknown
    cases htask : session.ready? number with
    | none =>
      rw [advance_of_none htask] at hknown
      exact h other known hknown
    | some task =>
      rcases of_getElem?_advance htask hknown with ⟨-, rfl⟩ | ⟨-, hold⟩
      · rw [Server.edited?_next_step]
        exact (Option.some_ne_none address).symm
      · exact h other known hold

/-- A text is only taken in for an address if the editor opens or changes the document there. -/
theorem Leaves.not_mem_edited (h : session.Leaves address)
    (harrives : ∀ notification, .arrives notification ∈ happenings →
      notification.task.edited? ≠ some address) : address ∉ session.edited happenings := by
  induction happenings generalizing session with
  | nil => exact List.not_mem_nil
  | cons happening rest ih =>
    rw [edited, seen, List.mem_append, not_or, Option.mem_toList]
    constructor
    · intro hnow
      cases happening with
      | arrives notification => cases hnow
      | advances number order =>
        obtain ⟨task, htask, hedits⟩ := Option.bind_eq_some_iff.1 hnow
        exact h number task (getElem?_of_ready? htask) hedits
    · have hnow : ∀ notification, happening = .arrives notification →
          notification.task.edited? ≠ some address :=
        fun notification heq ↦ harrives notification (heq ▸ List.mem_cons_self)
      apply ih (h.happen happening hnow)
      exact fun notification hrest ↦ harrives notification (List.mem_cons_of_mem _ hrest)

theorem ClosedSince.carries_of_sending (h : ClosedSince closed session address)
    (hedited : address ∉ session.edited happenings) {sending : Sending}
    (hsending : sending ∈ session.sendings happenings)
    (hopen : sending.plan.documents.HasOpen address) : closed.Carries sending.plan := by
  obtain ⟨before, happening, after, rfl, hseen⟩ := exists_of_mem_seen hsending
  rw [edited, seen_append, List.mem_append, not_or] at hedited
  cases happening with
  | arrives notification => cases hseen
  | advances number order =>
    obtain ⟨task, htask, hsends⟩ := Option.bind_eq_some_iff.1 hseen
    obtain ⟨rfl, -⟩ := Server.sending?_eq_some hsends
    exact (h.run hedited.1).carried ⟨number, _, getElem?_of_ready? htask, rfl⟩ hopen

/-- A closed document is not open, and closing it does not wait for anything. -/
theorem not_hasOpen_advance_close {number : Nat}
    (hclose : session.tasks[number]? = some (.close address)) (order : List Nat) :
    ¬ (session.advance number order).server.documents.HasOpen address := by
  have hready : session.ready? number = some (.close address) := by
    rw [ready?, hclose]
    rfl
  rw [server_advance hready]
  exact Documents.not_hasOpen_close session.server.documents address

/-- From the moment at which a document is closed until the editor gives its text again, the
diagnostics that are sent for it, or wait to be sent in the end, are those that waited at that moment and
those of the passes that had read the documents before. -/
theorem diagnostics_after_close {session : Session} {number : Nat} {address : String}
    (hclose : session.tasks[number]? = some (.close address)) (order : List Nat)
    (happenings : List Happening)
    (hedited : address ∉ (session.advance number order).edited happenings) :
    let closed := session.advance number order
    ∃ later, (closed.run happenings).sent = closed.sent ++ later ∧
      ∀ shown version, shown ≠ [] →
        (.diagnostics address shown version ∈ later ++ (closed.run happenings).undelivered ↔
          .diagnostics address shown version ∈ closed.undelivered ∨
          ∃ sending ∈ closed.sendings happenings, closed.Carries sending.plan ∧
            .diagnostics address shown version ∈ sending.messages) := by
  intro closed
  have hnone : ¬ closed.server.documents.HasOpen address := not_hasOpen_advance_close hclose order
  obtain ⟨later, hsent, hshowing⟩ := closed.exists_sent_run happenings
  refine ⟨later, hsent, ?_⟩
  intro shown version hshown
  let message : Message := .diagnostics address shown version
  have hfilter (messages : List Message) :
      message ∈ messages.filter Message.isShowing ↔ message ∈ messages := by
    have hisShowing : message.isShowing = true := by simp [message, Message.isShowing, hshown]
    rw [List.mem_filter, hisShowing, and_iff_left rfl]
  calc
    message ∈ later ++ (closed.run happenings).undelivered ↔
        message ∈ closed.undelivered ++ (closed.sendings happenings).flatMap Sending.messages := by
      rw [← hfilter, ← hshowing.mem_iff, hfilter]
    _ ↔ message ∈ closed.undelivered ∨
        ∃ sending ∈ closed.sendings happenings, message ∈ sending.messages := by
      rw [List.mem_append, List.mem_flatMap]
    _ ↔ _ := by
      refine or_congr_right (exists_congr fun sending ↦ and_congr_right fun hsending ↦ ?_)
      constructor
      · intro hmem
        have hopen := Sending.mem_messages_iff.1 ⟨shown, version, hmem⟩
        exact ⟨(closedSince_refl hnone).carries_of_sending hedited hsending hopen, hmem⟩
      · exact And.right

/-! ### A document that is closed while its pass runs -/

/-- A document is opened, and closed after its pass was begun. -/
def closing (address text : String) (version : Int) : List Happening :=
  opening 0 address text version ++ [.arrives (.closed address)]

theorem run_closing (host : Host) (project : String) {address text : String} {version : Int}
    {document : Document}
    (hdocument : Server.openDocument? host address text version = some document) :
    let documents : Documents := [(address, document)]
    let built := (documents.assembly project).buildCached 1 .empty
    let pass := (Engine.builtIn .default).begin built.1
    (Session.new (.new host none project)).run (closing address text version) =
      { server :=
          { host, workspace := none, project, documents, engines := #[pass.2], cache := built.2,
            version := 1, isSending := false }
        tasks := #[.run ⟨1, project, 0, documents⟩ pass.1, .close address]
        sent := [] } := by
  intro documents built pass
  rw [closing, run_append, run_opening_new host none project hdocument]
  rfl

/-- The pass still sends what it found in the document after that was closed. -/
theorem sent_closing (host : Host) (project : String) {address text : String} {version : Int}
    {document : Document}
    (hdocument : Server.openDocument? host address text version = some document)
    (hopened : document.isOpen = true) :
    let documents : Documents := [(address, document)]
    let built := (documents.assembly project).buildCached 1 .empty
    let session := (Session.new (.new host none project)).run (closing address text version)
    ((session.advance 1 []).run (alone 1 1 ++ alone 0 5)).sent =
      .diagnostics address [] none ::
        Server.messages [] ⟨1, project, 0, documents⟩ (Runner.builtInSet .default built.1) := by
  intro documents built session
  let plan : PassPlan := ⟨1, project, 0, documents⟩
  let pass := (Engine.builtIn .default).begin built.1
  let closed : Session :=
    { server :=
        { host, workspace := none, project, documents := documents.close address, engines := #[pass.2],
          cache := built.2, version := 1, isSending := false }
      tasks := #[.run plan pass.1, .finished]
      sent := [.diagnostics address [] none] }
  have hclosed : (session.advance 1 []).run (alone 1 1) = closed := by
    rw [show session = _ from run_closing host project hdocument]
    rfl
  have htask : closed.tasks[0]? = some (.run plan pass.1) := rfl
  have hkeeps : (Engine.builtIn .default).KeepsRules .builtIn .default :=
    Engine.keepsRules_new _ _
  have hcount : plan.documents.opened.length = 1 := by
    simp [Documents.opened, plan, documents, hopened]
  obtain ⟨successor, hrun⟩ := run_begun rfl htask hkeeps rfl (Store.admits_empty _) hcount
  rw [run_append, hclosed, hrun]
  exact List.singleton_append

def missingOption : Diagnostic where
  range := ⟨⟨0, 0⟩, ⟨0, 1⟩⟩
  severity := 1
  code := "OptionExplicit"
  message := "'Option Explicit' is not specified in 'A'."
  isUnnecessary := false
  category := .codeQualityIssues
  snapshotVersion := 1

theorem diagnostics_of_closed_document :
    let session := (Session.new (.new .plain none "P")).run (closing "file:///w/A.bas" "" 1)
    ((session.advance 1 []).run (alone 1 1 ++ alone 0 5)).sent =
      [.diagnostics "file:///w/A.bas" [] none,
        .diagnostics "file:///w/A.bas" [missingOption] (some 1)] := by
  intro session
  let documents : Documents := [("file:///w/A.bas", ⟨"A", .standardModule, "", true, some 1⟩)]
  have hdocument : Server.openDocument? .plain "file:///w/A.bas" "" 1 =
      some ⟨"A", .standardModule, "", true, some 1⟩ := by
    decide +kernel
  have hbuilt : ((documents.assembly "P").buildCached 1 (.after [])).1 =
      (documents.assembly "P").snapshot 1 :=
    Assembly.buildCached_after (.of_text_eq "" (by decide +kernel))
  have hmessages : Server.messages [] ⟨1, "P", 0, documents⟩
      (Runner.builtInSet .default ((documents.assembly "P").snapshot 1)) =
        [.diagnostics "file:///w/A.bas" [missingOption] (some 1)] := by
    decide +kernel
  rw [← hbuilt] at hmessages
  exact (sent_closing .plain "P" hdocument rfl).trans (congrArg (_ :: ·) hmessages)

/-- The same document is closed, and nothing is opened or changed while its pass ends. -/
theorem diagnostics_after_close_of_begun :
    let session := (Session.new (.new .plain none "P")).run (closing "file:///w/A.bas" "" 1)
    let closed := session.advance 1 []
    let rest := alone 1 1 ++ alone 0 5
    session.tasks[1]? = some (.close "file:///w/A.bas") ∧
      "file:///w/A.bas" ∉ closed.edited rest ∧
      ∃ later, (closed.run rest).sent = closed.sent ++ later ∧
        ∀ shown version, shown ≠ [] →
          (.diagnostics "file:///w/A.bas" shown version ∈ later ++ (closed.run rest).undelivered ↔
            .diagnostics "file:///w/A.bas" shown version ∈ closed.undelivered ∨
            ∃ sending ∈ closed.sendings rest, closed.Carries sending.plan ∧
              .diagnostics "file:///w/A.bas" shown version ∈ sending.messages) := by
  intro session closed rest
  have hdocument : Server.openDocument? .plain "file:///w/A.bas" "" 1 =
      some ⟨"A", .standardModule, "", true, some 1⟩ := by
    decide +kernel
  have hsession : session = _ := run_closing .plain "P" hdocument
  have hclose : session.tasks[1]? = some (.close "file:///w/A.bas") := by
    rw [hsession]
    rfl
  have hleaves : session.Leaves "file:///w/A.bas" := by
    intro number task htask
    rw [hsession] at htask
    have hmem := Array.mem_of_getElem? htask
    simp only [List.mem_toArray, List.mem_cons, List.not_mem_nil, or_false] at hmem
    rcases hmem with rfl | rfl <;> simp [Task.edited?]
  have hleft : closed.Leaves "file:///w/A.bas" :=
    hleaves.happen (.advances 1 []) fun notification heq ↦ by cases heq
  have hedited : "file:///w/A.bas" ∉ closed.edited rest := by
    apply hleft.not_mem_edited
    intro notification hmem
    simp [rest, alone] at hmem
  exact ⟨hclose, hedited, diagnostics_after_close hclose [] rest hedited⟩

end Session

end VbaLint.Editor
