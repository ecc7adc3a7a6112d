import VbaLint.Proofs.Editor.Placement
import VbaLint.Proofs.Editor.Positions
import VbaLint.Proofs.Module.WrittenNodes
import VbaLint.Proofs.Rules.FlaggedNodes

/-!
# The text that a diagnostic selects

A diagnostic that flags a piece of code is made at a node of a document, and its range is that of the node.
Where the node is written on one line, an editor selects with the range exactly the text of the node just if
the reader and the editor agree on the place: the range lies on this line, no carriage return stands alone
before the end of the node, and each character up to there on the line has one UTF-16 unit.
-/

namespace VbaLint

open Source Tree

theorem Tree.NodeKind.isWritten_of_mem_flaggedKinds {kind : NodeKind} (h : kind ∈ flaggedKinds) :
    kind.isWritten = true := by
  revert kind
  decide

namespace Editor

/-- The node of a number in the module that is read from a document. -/
def Document.node? (document : Document) (id : Nat) : Option Node :=
  (readModule document.name document.text).tree.node? id

/-- The finding is made at a node of the document that stands for a piece of code, and at its place. -/
structure Flags (finding : Finding) (document : Document) (node : Node) : Prop where
  name_eq : document.name = finding.module.component
  node_eq : document.node? finding.target.node = some node
  kind_mem : node.kind ∈ flaggedKinds
  selection_eq : finding.selection = node.selection

/-- The node is written in the source. Where it is written on one line, for the reader and for an editor, its
text stands there, and the range is that of the text just if both agree on the place. -/
structure Range.SelectsWhereAgreed (range : Range) (node : Node) (source : List Char) : Prop where
  written : ∃ p q, node.piece.IsWrittenFrom (physicalLines source) p q
  selects_iff {p q : Place} : node.piece.IsWrittenFrom (physicalLines source) p q → p.line = q.line →
    '\r' ∉ node.piece.text → ∃ above front behind,
      StandsAt p source above front node.piece.text behind ∧
        (around (above ++ front) node.piece.text behind).textIn source = node.piece.text ∧
        (range = around (above ++ front) node.piece.text behind ↔
          node.selection.startLine = p.line ∧ node.selection.endLine = p.line ∧
            ¬HasLoneReturn (above ++ front) (node.piece.text ++ behind) ∧
              ∀ c ∈ front ++ node.piece.text, units c = 1)

/-! ## Findings of a pass -/

namespace Flags

variable {finding : Finding} {document : Document} {node : Node}

theorem selectsWhereAgreed (h : Flags finding document node) :
    (Range.ofSelection finding.selection).SelectsWhereAgreed node document.text.toList where
  written := exists_isWrittenFrom_piece document.name document.text h.node_eq
    (NodeKind.isWritten_of_mem_flaggedKinds h.kind_mem)
  selects_iff {p q} hwritten hline hreturn := by
    obtain ⟨above, front, behind, hstands⟩ := hwritten.text.exists_standsAt hline hwritten.ne_nil
    refine ⟨above, front, behind, hstands, ?_, ?_⟩
    · have hselects := Range.textIn_around (above ++ front) node.piece.text behind
      rwa [List.append_assoc, ← hstands.split] at hselects
    · rw [h.selection_eq]
      exact Range.ofSelection_eq_around_iff hwritten hstands hreturn

/-- The finding is shown at the address of the document, unless an open document shares its name. -/
theorem mem_opened {documents : Documents} {located : Located} (h : Flags finding located.2 node)
    (hapart : documents.NamesApart) (hlocated : located ∈ documents) {address : String}
    (hshown : shownIn? documents.opened finding.module.component = some address) :
    located ∈ documents.opened ∧ located.1 = address := by
  obtain ⟨first, hfirst, haddress⟩ := Option.map_eq_some_iff.1 hshown
  have hsame := List.find?_some hfirst
  have hopened := List.mem_of_find?_eq_some hfirst
  have hmem := List.mem_filter.1 hopened
  rw [← h.name_eq] at hsame
  rw [hapart first hmem.1 hmem.2 located hlocated hsame]
  exact ⟨hopened, haddress⟩

end Flags

/-- A finding of a pass is made at a node of one of its documents. -/
theorem PassPlan.exists_flags {plan : PassPlan} {config : Config} {finding : Finding}
    (h : finding ∈ (Runner.builtInSet config (plan.assembly.build plan.version)).findings)
    (hother : finding.inspection ≠ OptionExplicit.info.name) :
    ∃ located ∈ plan.documents, ∃ node, Flags finding located.2 node := by
  have hread : (plan.assembly.build plan.version).IsRead := Assembly.isRead_build _ _ _
  obtain ⟨node, hnode, hkind, hselection⟩ := Runner.flagsCode_builtInSet hread h hother
  obtain ⟨located, hlocated, hname, hsource⟩ := exists_source_of_liesIn (Runner.liesIn_builtInSet h)
  rw [Snapshot.node?, Snapshot.tree?, hsource] at hnode
  exact ⟨located, hlocated, node, hname, hnode, hkind, hselection⟩

/-! ## Diagnostics of a session -/

namespace Session

variable {host : Host} {workspace : Option Workspace} {project : String} {happenings : List Happening}

/-- What shows diagnostics is a message of a result set. -/
theorem exists_sending_of_mem_sent {server : Server} {message : Message}
    (h : message ∈ ((Session.new server).run happenings).sent) (hshowing : message.isShowing = true) :
    ∃ sending ∈ (Session.new server).sendings happenings, message ∈ sending.messages := by
  obtain ⟨later, hsent, hshown⟩ := (Session.new server).exists_sent_run happenings
  have hlater : message ∈ (later ++ ((Session.new server).run happenings).undelivered).filter
      Message.isShowing := by
    rw [hsent] at h
    exact List.mem_filter.2 ⟨List.mem_append_left _ h, hshowing⟩
  exact List.mem_flatMap.1 (List.mem_filter.1 (hshown.mem_iff.2 hlater)).1

/-- Each diagnostic that is sent, but those for modules without `Option Explicit`, is made at a node of a
document of its pass. If names do not collide this is the document for which it is sent. An editor selects
with its range the text of the node just if it agrees with the reader on where the node is written. -/
theorem ranges_select_where_agreed
    (happart : DigestsTellApart (CacheCall.allSources
      (((Session.new (.new host workspace project)).begun happenings).map PassPlan.call)))
    {address : String} {shown : List Diagnostic} {version : Option Int}
    (hmessage : .diagnostics address shown version ∈
      ((Session.new (.new host workspace project)).run happenings).sent)
    {diagnostic : Diagnostic} (hdiagnostic : diagnostic ∈ shown)
    (hother : diagnostic.code ≠ OptionExplicit.info.name) :
    ∃ sending ∈ (Session.new (.new host workspace project)).sendings happenings,
      .diagnostics address shown version ∈ sending.messages ∧
      ∃ finding ∈ sending.set.findings, diagnostic = .ofFinding finding ∧
        ∃ located ∈ sending.plan.documents,
          (sending.plan.documents.NamesApart →
            located ∈ sending.plan.documents.opened ∧ located.1 = address) ∧
          ∃ node, Flags finding located.2 node ∧
            diagnostic.range.SelectsWhereAgreed node located.2.text.toList := by
  have hshowing : (Message.diagnostics address shown version).isShowing = true := by
    simp [Message.isShowing, List.ne_nil_of_mem hdiagnostic]
  obtain ⟨sending, hsending, hmem⟩ := exists_sending_of_mem_sent hmessage hshowing
  obtain ⟨_, -, rfl⟩ := Server.of_diagnostics_mem_messages hmem
  obtain ⟨finding, hfiltered, rfl⟩ := List.mem_map.1 hdiagnostic
  obtain ⟨hfinding, hshown⟩ := List.mem_filter.1 hfiltered
  obtain ⟨config, hset⟩ := set_eq_of_mem_sendings happart hsending
  obtain ⟨located, hlocated, node, hflags⟩ := PassPlan.exists_flags (hset ▸ hfinding) hother
  exact ⟨sending, hsending, hmem, finding, hfinding, rfl, located, hlocated,
    fun hapart ↦ hflags.mem_opened hapart hlocated (eq_of_beq hshown), node, hflags,
    hflags.selectsWhereAgreed⟩

/-! ### A document that is opened -/

def serving (address text : String) (version : Int) : List Happening :=
  opening 0 address text version ++ alone 0 5

/-- A task that has begun its pass begins no other. -/
theorem begun_alone {session : Session} {number : Nat} {task : Task}
    (htask : session.tasks[number]? = some task) (hleft : task.remainder.1 ≤ 4) (count : Nat) :
    session.begun (alone number count) = [] := by
  induction count generalizing session task with
  | zero => rfl
  | succ count ih =>
    rw [alone, List.replicate_succ, begun, seen, List.append_eq_nil_iff, happen, seen?]
    cases hready : session.ready? number with
    | none =>
      rw [advance_of_none hready]
      exact ⟨rfl, ih htask hleft⟩
    | some ready =>
      cases htask.symm.trans (getElem?_of_ready? hready)
      have hnone : session.server.begun? task = none := by
        cases task with
        | build plan => exact absurd hleft (Nat.not_succ_le_self 4)
        | _ => rfl
      rw [Option.bind_some, hnone]
      refine ⟨rfl, ih (getElem?_advance hready []) ?_⟩
      exact (session.server.remainder_fst_step_le [] task).trans hleft

section Serving

variable {address text : String} {version : Int} {document : Document}
  (hdocument : Server.openDocument? host address text version = some document)
include hdocument

theorem begun_opening_new :
    (Session.new (.new host workspace project)).begun (opening 0 address text version) =
      [⟨1, project, 0, [(address, document)]⟩] := by
  let session : Session := .new (.new host workspace project)
  let given : Session :=
    { server := { session.server with documents := [(address, document)] }
      tasks := #[.drawVersion]
      sent := [] }
  have hgiven : session.run (.arrives (.opened address text version) :: alone 0 1) = given := by
    change (session.start (.opened address text version)).advance session.tasks.size [] = given
    rw [advance_start, Notification.task, Server.step, Server.edit,
      show Server.openDocument? session.server.host address text version = some document from hdocument]
    rfl
  rw [begun, opening, seen_append, hgiven]
  rfl

theorem begun_serving : (Session.new (.new host workspace project)).begun (serving address text version) =
    [⟨1, project, 0, [(address, document)]⟩] := by
  let session : Session := .new (.new host workspace project)
  have hrest : (session.run (opening 0 address text version)).begun (alone 0 5) = [] := by
    rw [run_opening_new host workspace project hdocument]
    exact begun_alone rfl (by exact Nat.le_refl 4) 5
  calc
    session.begun (serving address text version) =
        session.begun (opening 0 address text version) ++
          (session.run (opening 0 address text version)).begun (alone 0 5) :=
      seen_append ..
    _ = _ := by rw [hrest, List.append_nil, begun_opening_new hdocument]

theorem sent_serving (hopened : document.isOpen = true) :
    let plan : PassPlan := ⟨1, project, 0, [(address, document)]⟩
    ((Session.new (.new host workspace project)).run (serving address text version)).sent =
      Server.messages [] plan (Runner.builtInSet .default (plan.assembly.snapshot 1)) := by
  intro plan
  let engine : Engine Collector := .builtIn .default
  let built := plan.assembly.buildCached 1 .empty
  have hbuilt : built.1 = plan.assembly.snapshot 1 :=
    Assembly.build_eq_snapshot (Assembly.nodup_components _ _) 1
  let begun : Session :=
    { server :=
        { host, workspace, project, documents := plan.documents, engines := #[(engine.begin built.1).2]
          cache := built.2, version := 1, isSending := false }
      tasks := #[.run plan (engine.begin built.1).1]
      sent := [] }
  have htask : begun.tasks[0]? = some (.run plan (engine.begin built.1).1) := rfl
  have hkeeps : engine.KeepsRules .builtIn .default := Engine.keepsRules_new _ _
  have hcount : plan.documents.opened.length = 1 := by
    simp [Documents.opened, plan, hopened]
  obtain ⟨successor, hrun⟩ := run_begun rfl htask hkeeps rfl (Store.admits_empty _) hcount
  rw [serving, run_append, run_opening_new host workspace project hdocument]
  refine (congrArg Session.sent hrun).trans ?_
  rw [hbuilt]
  exact List.nil_append _

end Serving

/-- What the first pass says of a variable `x` that is never read. -/
def unusedItem (range : Range) : Diagnostic where
  range
  severity := 2
  code := "VariableNotUsed"
  message := "Variable 'x' is not used."
  isUnnecessary := true
  category := .codeQualityIssues
  snapshotVersion := 1

def textOfItem : String := "Option Explicit\nDim x As Long\n"

theorem ranges_select_item :
    let session := Session.new (.new .plain none "P")
    let happenings := serving "file:///w/A.bas" textOfItem 1
    let diagnostic := unusedItem ⟨⟨1, 4⟩, ⟨1, 13⟩⟩
    DigestsTellApart (CacheCall.allSources ((session.begun happenings).map PassPlan.call)) ∧
      .diagnostics "file:///w/A.bas" [diagnostic] (some 1) ∈ (session.run happenings).sent ∧
      diagnostic.code ≠ OptionExplicit.info.name ∧
      ∃ sending ∈ session.sendings happenings,
        .diagnostics "file:///w/A.bas" [diagnostic] (some 1) ∈ sending.messages ∧
        ∃ finding ∈ sending.set.findings, diagnostic = .ofFinding finding ∧
          ∃ located ∈ sending.plan.documents,
            (sending.plan.documents.NamesApart →
              located ∈ sending.plan.documents.opened ∧ located.1 = "file:///w/A.bas") ∧
            ∃ node, Flags finding located.2 node ∧
              diagnostic.range.SelectsWhereAgreed node located.2.text.toList := by
  intro session happenings diagnostic
  let document : Document := ⟨"A", .standardModule, textOfItem, true, some 1⟩
  let plan : PassPlan := ⟨1, "P", 0, [("file:///w/A.bas", document)]⟩
  have hdocument : Server.openDocument? .plain "file:///w/A.bas" textOfItem 1 = some document := by
    decide +kernel
  have happart : DigestsTellApart
      (CacheCall.allSources ((session.begun happenings).map PassPlan.call)) := by
    rw [show session.begun happenings = [plan] from begun_serving hdocument]
    exact .of_text_eq textOfItem (by decide +kernel)
  have hmessages : Server.messages [] plan (Runner.builtInSet .default (plan.assembly.snapshot 1)) =
      [.diagnostics "file:///w/A.bas" [diagnostic] (some 1)] := by
    decide +kernel
  have hmessage : .diagnostics "file:///w/A.bas" [diagnostic] (some 1) ∈ (session.run happenings).sent := by
    rw [show (session.run happenings).sent = _ from sent_serving hdocument rfl, hmessages]
    exact List.mem_singleton_self _
  have hother : diagnostic.code ≠ OptionExplicit.info.name := by decide
  exact ⟨happart, hmessage, hother,
    ranges_select_where_agreed happart hmessage (List.mem_singleton_self _) hother⟩

def textBehindPair : String := "Option Explicit\nConst S = \"😀\": Dim x As Long\n"

/-- The range that is sent for the variable begins one unit before it, and ends one unit before its end. -/
theorem range_behind_pair :
    let range : Range := ⟨⟨1, 19⟩, ⟨1, 28⟩⟩
    ((Session.new (.new .plain none "P")).run (serving "file:///w/A.bas" textBehindPair 1)).sent =
        [.diagnostics "file:///w/A.bas" [unusedItem range] (some 1)] ∧
      (∃ node, (readModule "A" textBehindPair).tree.node? 12 = some node ∧
        node.kind = .variableSubStmt ∧ node.text = "x As Long" ∧ range = .ofSelection node.selection) ∧
      range.textIn textBehindPair.toList = " x As Lon".toList := by
  intro range
  let document : Document := ⟨"A", .standardModule, textBehindPair, true, some 1⟩
  let plan : PassPlan := ⟨1, "P", 0, [("file:///w/A.bas", document)]⟩
  have hdocument : Server.openDocument? .plain "file:///w/A.bas" textBehindPair 1 = some document := by
    decide +kernel
  have hmessages : Server.messages [] plan (Runner.builtInSet .default (plan.assembly.snapshot 1)) =
      [.diagnostics "file:///w/A.bas" [unusedItem range] (some 1)] := by
    decide +kernel
  have hnode : (((readModule "A" textBehindPair).tree.node? 12).map fun node ↦
      (node.kind, node.text, node.selection)) = some (.variableSubStmt, "x As Long", ⟨2, 20, 2, 28⟩) := by
    decide +kernel
  obtain ⟨node, hknown, hfacts⟩ := Option.map_eq_some_iff.1 hnode
  obtain ⟨hkind, htext, hselection⟩ : node.kind = .variableSubStmt ∧ node.text = "x As Long" ∧
      node.selection = ⟨2, 20, 2, 28⟩ := by
    simpa using hfacts
  refine ⟨(sent_serving hdocument rfl).trans hmessages, ⟨node, hknown, hkind, htext, ?_⟩, ?_⟩
  · rw [hselection]
    rfl
  · decide +kernel

end Session

end Editor

end VbaLint
