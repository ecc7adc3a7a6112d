import VbaLint.Proofs.Editor.Following

/-!
# Sessions whose notifications come one at a time

If each notification is only taken in after the one before is done, the diagnostics that the editor
shows are at any time those of the documents that it has open, and a document that was closed shows
none.
-/

namespace VbaLint.Editor

open Files Text

/-! ## Messages for one document -/

/-- The message holds the diagnostics of the document at the address. -/
def Message.isFor (address : String) : Message → Bool
  | .diagnostics other _ _ => other == address
  | .log .. => false

namespace Turn.Sends

variable {home : Home} {project : String} {before : List Turn} {turn : Turn}
  {sent : List Message} {address : String}

theorem filter_of_closed (h : turn.Sends home project before sent)
    (hclosed : turn.notification = .closed address) :
    sent.filter (·.isFor address) = [.diagnostics address [] none] := by
  have htriggers : turn.triggers home before = false := by
    simp [triggers, hclosed, given?, Notification.text?]
  rw [Sends, htriggers, if_neg Bool.false_ne_true, hclosed] at h
  rw [h]
  simp [Message.isFor]

/-- Nothing is sent for a document that is not open, but that it is closed. -/
theorem filter_of_not_isOpenAt (h : turn.Sends home project before sent)
    (hopen : ¬ IsOpenAt home (before ++ [turn]) address)
    (hclosed : turn.notification ≠ .closed address) : sent.filter (·.isFor address) = [] := by
  rw [List.filter_eq_nil_iff]
  intro message hmessage hfor
  unfold Sends at h
  split at h
  · obtain ⟨listing, hlists, hsent⟩ := h
    obtain ⟨located, hlocated, rfl⟩ := List.mem_map.1 (hsent.mem_iff.1 hmessage)
    obtain ⟨hmem, hisOpen⟩ := List.mem_filter.1 hlocated
    have haddress : located.1 = address := eq_of_beq hfor
    rw [hlists.mem_iff, haddress] at hmem
    exact hopen ⟨located.2, hmem, hisOpen⟩
  · split at h
    · next other hturn =>
      rw [h, List.mem_singleton] at hmessage
      subst hmessage
      have haddress : other = address := eq_of_beq hfor
      exact hclosed (haddress ▸ hturn)
    · have hlog := h message hmessage
      cases message with
      | log => cases hfor
      | diagnostics => exact hlog

end Turn.Sends

/-! ## Sessions -/

namespace Session

/-- How a session goes whose notifications are taken in one at a time. -/
structure FollowsTurns (host : Host) (workspace : Option Workspace) (project : String)
    (turns : List Turn) : Prop where
  /-- In each turn nothing happens but that its task goes to its end, with the files of the turn on disk. -/
  runs (before : List Turn) (turn : Turn) : before ++ [turn] <+: turns →
    let session := (Session.new (.new host workspace project)).takeAll before
    ∃ orders : List (List Nat),
      ({ session with server := session.server.seeing turn.files } : Session).run
          (.arrives turn.notification :: orders.map (.advances session.tasks.size)) =
        (Session.new (.new host workspace project)).takeAll (before ++ [turn])
  /-- A turn that triggers a pass sends one message for each open document and none for others, with
  what is found in the documents known now; other turns send no diagnostics, except that a document
  that is closed has none. -/
  sends (before : List Turn) (turn : Turn) : before ++ [turn] <+: turns →
    ∃ sent, ((Session.new (.new host workspace project)).takeAll (before ++ [turn])).sent =
        ((Session.new (.new host workspace project)).takeAll before).sent ++ sent ∧
      turn.Sends (.of host workspace) project before sent
  /-- The snapshots of passes have increasing versions. -/
  passes_lt (before later : List Turn) (turn next : Turn) : before ++ [turn] <+: later →
    later ++ [next] <+: turns → next.triggers (.of host workspace) later = true →
      passes (.of host workspace) (before ++ [turn]) <
        passes (.of host workspace) (later ++ [next])
  /-- An open document has the last version that the editor gave, if no change came without a
  text. -/
  version_eq (before : List Turn) (address : String) (document : Document) : before <+: turns →
    (∀ turn ∈ before, turn.notification.CarriesText) →
      documentAt (.of host workspace) before address = some document →
        document.isOpen = true → document.version = lastVersion before address
  /-- The last diagnostics of a document that was closed and not given again are none. -/
  cleared (address : String) : (∃ turn ∈ turns, turn.notification = .closed address) →
    ¬ IsOpenAt (.of host workspace) turns address →
      (((Session.new (.new host workspace project)).takeAll turns).sent.filter
        (·.isFor address)).getLast? = some (.diagnostics address [] none)

variable (host : Host) (workspace : Option Workspace) (project : String) {turns : List Turn}

theorem follows_takeAll
    (hnames : ∀ before, before <+: turns → NamesDiffer (.of host workspace) before)
    (htexts : TextsDiffer (.of host workspace) turns) {before : List Turn}
    (hbefore : before <+: turns) :
    ((Session.new (.new host workspace project)).takeAll before).server.Follows
      (.of host workspace) project before := by
  induction before using List.reverseRecOn with
  | nil => exact Server.follows_new host workspace project
  | append_singleton before turn ih =>
    have hearlier := ih ((List.prefix_append before [turn]).trans hbefore)
    rw [takeAll_concat]
    exact (hearlier.take (hnames _ hbefore) (htexts.mono hbefore)).2

theorem exists_sends
    (hnames : ∀ before, before <+: turns → NamesDiffer (.of host workspace) before)
    (htexts : TextsDiffer (.of host workspace) turns) {before : List Turn} {turn : Turn}
    (hbegins : before ++ [turn] <+: turns) :
    ∃ sent, ((Session.new (.new host workspace project)).takeAll (before ++ [turn])).sent =
        ((Session.new (.new host workspace project)).takeAll before).sent ++ sent ∧
      turn.Sends (.of host workspace) project before sent := by
  have hearlier := (List.prefix_append before [turn]).trans hbegins
  have hfollows := follows_takeAll host workspace project hnames htexts hearlier
  refine ⟨_, ?_, (hfollows.take (hnames _ hbegins) (htexts.mono hbegins)).1⟩
  rw [takeAll_concat]
  rfl

theorem getLast?_of_closed
    (hnames : ∀ before, before <+: turns → NamesDiffer (.of host workspace) before)
    (htexts : TextsDiffer (.of host workspace) turns) {address : String} {before : List Turn}
    (hbefore : before <+: turns) (hclosed : ∃ turn ∈ before, turn.notification = .closed address)
    (hopen : ¬ IsOpenAt (.of host workspace) before address) :
    (((Session.new (.new host workspace project)).takeAll before).sent.filter
      (·.isFor address)).getLast? = some (.diagnostics address [] none) := by
  induction before using List.reverseRecOn with
  | nil =>
    obtain ⟨turn, hturn, -⟩ := hclosed
    cases hturn
  | append_singleton before turn ih =>
    obtain ⟨sent, hsent, hsends⟩ := exists_sends host workspace project hnames htexts hbefore
    rw [hsent, List.filter_append]
    by_cases hnow : turn.notification = .closed address
    · rw [hsends.filter_of_closed hnow]
      exact List.getLast?_concat
    · -- The document was closed before, and has not been opened since.
      have hearlier : ∃ earlier ∈ before, earlier.notification = .closed address := by
        obtain ⟨earlier, hmem, hearlier⟩ := hclosed
        rcases List.mem_append.1 hmem with hmem | hlast
        · exact ⟨earlier, hmem, hearlier⟩
        · exact absurd (List.mem_singleton.1 hlast ▸ hearlier) hnow
      rw [hsends.filter_of_not_isOpenAt hopen hnow, List.append_nil]
      exact ih ((List.prefix_append before [turn]).trans hbefore) hearlier
        fun hbeforehand ↦ hopen (hbeforehand.concat hnow)

/-- Whatever the editor sends, one notification at a time, each pass is sent for just the documents
that are open, with what is found in all documents as they are now, as long as no two component names
are equal in some ASCII case and digests tell texts apart. -/
theorem diagnostics_follow_turns (host : Host) (workspace : Option Workspace) (project : String)
    (turns : List Turn)
    (hnames : ∀ before, before <+: turns → NamesDiffer (.of host workspace) before)
    (htexts : TextsDiffer (.of host workspace) turns) :
    FollowsTurns host workspace project turns where
  runs before turn hbegins := by
    have hbefore := (List.prefix_append before [turn]).trans hbegins
    rw [takeAll_concat]
    exact exists_run_eq_take (follows_takeAll host workspace project hnames htexts hbefore).isSending_eq turn
  sends _ _ hbegins := exists_sends host workspace project hnames htexts hbegins
  passes_lt _ _ _ _ hbefore _ htriggers := passes_lt_passes _ htriggers hbefore
  version_eq _ _ _ _ htexts hdocument hopen :=
    (version_eq_lastVersion htexts hdocument hopen).1
  cleared _ hclosed hopen :=
    getLast?_of_closed host workspace project hnames htexts List.prefix_rfl hclosed hopen

/-! ### A document that is opened, saved and closed -/

def plainDocument (version : Int) : Document where
  name := "A"
  type := .standardModule
  text := "Option Explicit\n"
  isOpen := true
  version := some version

theorem openDocument?_plain (version : Int) :
    Server.openDocument? .plain "file:///w/A.bas" "Option Explicit\n" version =
      some (plainDocument version) := by
  have hpath : Host.plain.pathOf? "file:///w/A.bas" = some "/w/A.bas" := by decide +kernel
  have htype : ComponentType.ofPath? "/w/A.bas" = some .standardModule := by decide +kernel
  have hname : componentName "/w/A.bas" "Option Explicit\n" = "A" := by decide +kernel
  simp [Server.openDocument?, hpath, htype, hname, plainDocument]

def plainTurns (notifications : List Notification) : List Turn :=
  notifications.map (⟨·, fun _ ↦ none, fun _ ↦ []⟩)

/-- In the turns no text is given but that of the plain document. -/
def GivesPlain (turns : List Turn) : Prop :=
  ∀ turn ∈ turns, ∀ located, turn.given? (.of .plain none) = some located →
    located = ("file:///w/A.bas", plainDocument 1)

namespace GivesPlain

variable {turns before : List Turn}

theorem documentAt (h : GivesPlain turns) (hbefore : before <+: turns) {address : String}
    {document : Document} (hdocument : Editor.documentAt (.of .plain none) before address = some document) :
    address = "file:///w/A.bas" ∧ document.text = "Option Explicit\n" := by
  obtain ⟨turn, hturn, given, hgiven, heq⟩ := exists_given_of_documentAt rfl hdocument
  cases h turn (hbefore.subset hturn) _ hgiven
  rw [heq]
  exact ⟨rfl, rfl⟩

theorem namesDiffer (h : GivesPlain turns) (hbefore : before <+: turns) :
    NamesDiffer (.of .plain none) before := by
  intro address document other known hdocument hknown _
  exact (h.documentAt hbefore hdocument).1.trans (h.documentAt hbefore hknown).1.symm

theorem textsDiffer (h : GivesPlain turns) : TextsDiffer (.of .plain none) turns := by
  have htext {text : String} (hknown : TextKnown (.of .plain none) turns text) :
      text = "Option Explicit\n" := by
    obtain ⟨before, hbefore, address, document, hdocument, rfl⟩ := hknown
    exact (h.documentAt hbefore hdocument).2
  exact fun text other hknown hother _ ↦ (htext hknown).trans (htext hother).symm

end GivesPlain

def editing : List Turn :=
  plainTurns
    [.opened "file:///w/A.bas" "Option Explicit\n" 1, .saved "file:///w/A.bas",
      .closed "file:///w/A.bas"]

theorem givesPlain_editing : GivesPlain editing := by
  simp [GivesPlain, editing, plainTurns, Turn.given?, Notification.text?, openDocument?_plain]

theorem editing_follows_turns :
    (∀ before, before <+: editing → NamesDiffer (.of .plain none) before) ∧
      TextsDiffer (.of .plain none) editing ∧ FollowsTurns .plain none "P" editing := by
  have hnames : ∀ before, before <+: editing → NamesDiffer (.of .plain none) before :=
    fun before ↦ givesPlain_editing.namesDiffer
  have htexts := givesPlain_editing.textsDiffer
  exact ⟨hnames, htexts, diagnostics_follow_turns .plain none "P" editing hnames htexts⟩

/-! ### A change without a text -/

/-- A document is opened and saved, and in between it gets a version, but no text. -/
def renumbering : List Turn :=
  plainTurns
    [.opened "file:///w/A.bas" "Option Explicit\n" 1, .changed "file:///w/A.bas" [] 2,
      .saved "file:///w/A.bas"]

theorem givesPlain_renumbering : GivesPlain renumbering := by
  simp [GivesPlain, renumbering, plainTurns, Turn.given?, Notification.text?, openDocument?_plain]

/-- After the turns just the plain document is known, as it was given at first. -/
def HoldsPlain (turns : List Turn) : Prop :=
  ∀ address, documentAt (.of .plain none) turns address =
    if "file:///w/A.bas" = address then some (plainDocument 1) else none

theorem HoldsPlain.concat {turns : List Turn} {turn : Turn} (h : HoldsPlain turns)
    (hgiven : turn.given? (.of .plain none) = none) (hinitialized : turn.notification ≠ .initialized)
    (hclosed : ∀ address, turn.notification ≠ .closed address) : HoldsPlain (turns ++ [turn]) := by
  intro address
  rw [documentAt_concat, Turn.documentAfter_of_idle hgiven hinitialized (hclosed address)]
  exact h address

/-- What a turn sends that triggers a pass over the plain document. -/
theorem sent_eq_of_plain {before : List Turn} {turn : Turn} {sent : List Message}
    (h : turn.Sends (.of .plain none) "P" before sent)
    (htriggers : turn.triggers (.of .plain none) before = true)
    (hholds : HoldsPlain (before ++ [turn]))
    (hconfig : configAfter (.of .plain none) (before ++ [turn]) = .default)
    (hpasses : passes (.of .plain none) (before ++ [turn]) ∈ [1, 2]) :
    sent = [.diagnostics "file:///w/A.bas" [] (some 1)] := by
  rw [Turn.Sends, if_pos htriggers] at h
  obtain ⟨listing, hlists, hsent⟩ := h
  have hlisting : listing = [("file:///w/A.bas", plainDocument 1)] := by
    rw [← List.perm_singleton, List.perm_ext_iff_of_nodup (.of_map _ hlists.nodup) (by simp)]
    rintro ⟨address, document⟩
    rw [hlists.mem_iff, hholds address]
    grind
  have hbuild (version : Nat) : (listing.assembly "P").build version =
      (listing.assembly "P").snapshot version :=
    Assembly.build_eq_snapshot (Assembly.nodup_components _ _) version
  have hmessages : Server.openMessages "P" listing
      (findingsAfter (.of .plain none) "P" (before ++ [turn]) listing) =
        [.diagnostics "file:///w/A.bas" [] (some 1)] := by
    rw [findingsAfter, hconfig, hbuild, hlisting]
    simp only [List.mem_cons, List.not_mem_nil, or_false] at hpasses
    rcases hpasses with hone | htwo
    · rw [hone]
      decide +kernel
    · rw [htwo]
      decide +kernel
  exact List.perm_singleton.1 (hmessages ▸ hsent)

/-- The version that a change without a text gives to a document is lost. -/
theorem version_of_empty_change :
    ((Session.new (.new .plain none "P")).takeAll renumbering).sent =
        [.diagnostics "file:///w/A.bas" [] (some 1), .diagnostics "file:///w/A.bas" [] (some 1)] ∧
      lastVersion renumbering "file:///w/A.bas" = some 2 := by
  let home : Home := .of .plain none
  let opened : Turn := ⟨.opened "file:///w/A.bas" "Option Explicit\n" 1, fun _ ↦ none, fun _ ↦ []⟩
  let changed : Turn := ⟨.changed "file:///w/A.bas" [] 2, fun _ ↦ none, fun _ ↦ []⟩
  let saved : Turn := ⟨.saved "file:///w/A.bas", fun _ ↦ none, fun _ ↦ []⟩
  let session (turns : List Turn) := (Session.new (.new .plain none "P")).takeAll turns
  have hsends {before : List Turn} {turn : Turn} (hbegins : before ++ [turn] <+: renumbering) :
      ∃ sent, (session (before ++ [turn])).sent = (session before).sent ++ sent ∧
        turn.Sends home "P" before sent :=
    exists_sends .plain none "P" (fun before ↦ givesPlain_renumbering.namesDiffer)
      givesPlain_renumbering.textsDiffer hbegins
  have hgiven : opened.given? home = some ("file:///w/A.bas", plainDocument 1) := by
    simp [opened, home, Turn.given?, Notification.text?, openDocument?_plain]
  have hknown : HoldsPlain ([] ++ [opened]) := by
    intro address
    rw [documentAt_concat, Turn.documentAfter, show opened.given? (.of .plain none) = _ from hgiven]
    rfl
  have hkept : HoldsPlain ([opened] ++ [changed]) :=
    hknown.concat rfl Notification.noConfusion fun _ ↦ Notification.noConfusion
  have htriggers : opened.triggers home [] = true := by
    rw [Turn.triggers_of_text? rfl, hgiven]
    rfl
  have hagain : saved.triggers home ([opened] ++ [changed]) = true := by
    change (documentAt home ([opened] ++ [changed]) "file:///w/A.bas").isSome = true
    rw [hkept, if_pos rfl, Option.isSome_some]
  have hpasses : passes home ([] ++ [opened]) = 1 := by
    rw [passes_concat, htriggers]
    rfl
  have htwo : passes home (([opened] ++ [changed]) ++ [saved]) = 2 := by
    rw [passes_concat, hagain, passes_concat, show passes home [opened] = 1 from hpasses]
    rfl
  have hopened : (session [opened]).sent = [.diagnostics "file:///w/A.bas" [] (some 1)] := by
    obtain ⟨sent, hsent, hopens⟩ := @hsends [] opened ⟨[changed, saved], rfl⟩
    rw [sent_eq_of_plain hopens htriggers hknown rfl (by rw [hpasses]; decide)] at hsent
    exact hsent
  have hchanged : (session ([opened] ++ [changed])).sent = (session [opened]).sent := by
    rw [show session ([opened] ++ [changed]) = _ from takeAll_concat _ [opened] changed]
    have hnothing : ((session [opened]).server.take changed).1 = [] :=
      congrArg Prod.fst (Server.finish_finished _ _)
    exact (congrArg (_ ++ ·) hnothing).trans (List.append_nil _)
  have hsaved : (session renumbering).sent =
      (session ([opened] ++ [changed])).sent ++
        [.diagnostics "file:///w/A.bas" [] (some 1)] := by
    obtain ⟨sent, hsent, hsaves⟩ := @hsends ([opened] ++ [changed]) saved ⟨[], rfl⟩
    have hlast : HoldsPlain (([opened] ++ [changed]) ++ [saved]) :=
      hkept.concat rfl Notification.noConfusion fun _ ↦ Notification.noConfusion
    rw [sent_eq_of_plain hsaves hagain hlast rfl (by rw [htwo]; decide)] at hsent
    exact hsent
  refine ⟨?_, rfl⟩
  rw [show (session renumbering).sent = _ from hsaved, hchanged, hopened]
  rfl

end Session

end VbaLint.Editor
