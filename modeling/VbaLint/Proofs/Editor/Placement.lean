import VbaLint.Proofs.Editor.Sendings
import VbaLint.Proofs.Project.Assembling

/-!
# Where diagnostics are shown

Modules are kept by the exact name of their component, while a finding is shown in the first open
document of that name in any ASCII case. Both agree on the document if and only if no open document
shares its name with another document.
-/

namespace VbaLint.Editor

open Files Text

def Document.source (project : String) (document : Document) : ModuleSource :=
  ModuleText.source project ⟨document.name, document.type, document.text⟩

/-- The findings that are shown in the document at an address, where `documents` are the open ones. -/
def findingsShownAt (documents : Documents) (set : ResultSet) (address : String) : List Finding :=
  set.findings.filter fun finding ↦
    shownIn? documents finding.module.component == some address

/-- A document gets those findings that are shown at its address. -/
theorem diagnosticsOf_eq_map (documents : Documents) (set : ResultSet) (address : String) :
    diagnosticsOf documents set address =
      (findingsShownAt documents set address).map .ofFinding := rfl

/-- Whatever is shown in an open document lies in the module that was read from its text. -/
def PassPlan.LandsWhereRead (plan : PassPlan) (snapshot : Snapshot) (set : ResultSet) : Prop :=
  ∀ located ∈ plan.documents.opened,
    ∀ finding ∈ findingsShownAt plan.documents.opened set located.1,
      snapshot.module? finding.module = some (located.2.source plan.project)

/-- Each diagnostic that is sent for a document was then found in the module read from its text. -/
theorem PassPlan.LandsWhereRead.exists_source {plan : PassPlan} {snapshot : Snapshot}
    {set : ResultSet} (h : plan.LandsWhereRead snapshot set) {order : List Nat} {address : String}
    {shown : List Diagnostic} {version : Option Int}
    (hmessage : .diagnostics address shown version ∈ Server.messages order plan set) :
    ∃ document, (address, document) ∈ plan.documents.opened ∧
      ∀ diagnostic ∈ shown, ∃ finding ∈ set.findings, diagnostic = .ofFinding finding ∧
        snapshot.module? finding.module = some (document.source plan.project) := by
  obtain ⟨document, hopened, rfl⟩ := Server.of_diagnostics_mem_messages hmessage
  refine ⟨document, hopened, ?_⟩
  intro diagnostic hdiagnostic
  rw [diagnosticsOf_eq_map] at hdiagnostic
  obtain ⟨finding, hfinding, rfl⟩ := List.mem_map.1 hdiagnostic
  exact ⟨finding, (List.mem_filter.1 hfinding).1, rfl, h (address, document) hopened finding hfinding⟩

namespace Documents

def withTexts (documents : Documents) (texts : String → String) : Documents :=
  documents.map fun located ↦ (located.1, { located.2 with text := texts located.1 })

/-- No open document shares its name with another document, in any ASCII case. -/
def NamesApart (documents : Documents) : Prop :=
  ∀ located ∈ documents, located.2.isOpen = true →
    ∀ other ∈ documents, sameName located.2.name other.2.name = true → other = located

instance (documents : Documents) : Decidable documents.NamesApart :=
  inferInstanceAs (Decidable (∀ located ∈ documents, located.2.isOpen = true →
    ∀ other ∈ documents, sameName located.2.name other.2.name = true → other = located))

variable {documents listed : Documents}

theorem NamesApart.perm (h : documents.NamesApart) (hperm : listed.Perm documents) :
    listed.NamesApart :=
  fun located hlocated hopen other hother ↦
    h located (hperm.mem_iff.1 hlocated) hopen other (hperm.mem_iff.1 hother)

theorem NamesApart.withTexts (h : documents.NamesApart) (texts : String → String) :
    (documents.withTexts texts).NamesApart := by
  intro located hlocated hopen other hother hsame
  obtain ⟨located', hlocated', rfl⟩ := List.mem_map.1 hlocated
  obtain ⟨other', hother', rfl⟩ := List.mem_map.1 hother
  rw [h located' hlocated' hopen other' hother' hsame]

/-- The module of a component is read from the last document of that name. -/
theorem module?_build (documents : Documents) (project : String) (version : Nat)
    (component : String) :
    ((documents.assembly project).build version).module? ⟨project, component⟩ =
      (List.find? (fun located : Located ↦ located.2.name == component) documents.reverse).map
        fun located ↦ located.2.source project := by
  rw [assembly, Assembly.module?_build, ← List.map_reverse, List.find?_map, Option.map_map]
  rfl

end Documents

/-- What lies in the modules of a pass lies in the module that was read from one of its documents. -/
theorem PassPlan.exists_source_of_liesIn {plan : PassPlan} {finding : Finding}
    (h : finding.LiesIn (plan.assembly.build plan.version)) :
    ∃ read ∈ plan.documents, read.2.name = finding.module.component ∧
      (plan.assembly.build plan.version).module? finding.module =
        some (read.2.source plan.project) := by
  obtain ⟨source, hsource⟩ := h.exists_module
  have hmodule : finding.module = ⟨plan.project, finding.module.component⟩ := by
    rw [← Assembly.project_eq_of_module?_build hsource]
  rw [hmodule, PassPlan.assembly, Documents.module?_build] at hsource ⊢
  obtain ⟨read, hread, rfl⟩ := Option.map_eq_some_iff.1 hsource
  have hnamed := List.find?_some hread
  exact ⟨read, List.mem_reverse.1 (List.mem_of_find?_eq_some hread), eq_of_beq hnamed, hsource⟩

/-! ## Names that do not collide -/

/-- If names do not collide, what lies in the modules of a pass is shown where it was read. -/
theorem PassPlan.landsWhereRead_of_namesApart {plan : PassPlan} {set : ResultSet}
    (haddresses : (plan.documents.map (·.1)).Nodup)
    (hlies : ∀ finding ∈ set.findings, finding.LiesIn (plan.assembly.build plan.version))
    (hapart : plan.documents.NamesApart) :
    plan.LandsWhereRead (plan.assembly.build plan.version) set := by
  intro located hlocated finding hfinding
  obtain ⟨hmem, hshown⟩ := List.mem_filter.1 hfinding
  obtain ⟨read, hread, hname, hsource⟩ := exists_source_of_liesIn (hlies finding hmem)
  obtain ⟨shown, hfirst, haddress⟩ := Option.map_eq_some_iff.1 (eq_of_beq hshown)
  have hopened := List.mem_filter.1 hlocated
  have hshows : shown = located := by
    have hmem := (List.mem_filter.1 (List.mem_of_find?_eq_some hfirst)).1
    exact List.inj_on_of_nodup_map haddresses hmem hopened.1 haddress
  have hreads : read = located := by
    have hfound := List.find?_some hfirst
    rw [hshows, ← hname] at hfound
    exact hapart located hopened.1 hopened.2 read hread hfound
  rw [hsource, hreads]

/-- As long as digests tell texts apart, a session sends what a new runner finds in the documents of
each pass. -/
theorem Session.set_eq_of_mem_sendings {host : Host} {workspace : Option Workspace} {project : String}
    {happenings : List Happening} {sending : Sending}
    (happart : DigestsTellApart (CacheCall.allSources
      (((Session.new (.new host workspace project)).begun happenings).map PassPlan.call)))
    (hsending : sending ∈ (Session.new (.new host workspace project)).sendings happenings) :
    ∃ config, sending.set =
      Runner.builtInSet config (sending.plan.assembly.build sending.plan.version) := by
  obtain ⟨before, happening, after, rfl, hseen⟩ := exists_of_mem_seen hsending
  have hrecords := (records_new host workspace project).run before
  obtain ⟨engine, -, -, snapshot, hbegun, hset⟩ := hrecords.fits_sending hseen
  rw [begun, seen_append] at happart
  have hsnapshot : snapshot = sending.plan.assembly.build sending.plan.version := by
    calc
      snapshot = sending.plan.assembly.snapshot sending.plan.version :=
        (hbegun.append _).eq_snapshot happart
      _ = sending.plan.assembly.build sending.plan.version :=
        (Assembly.build_eq_snapshot (Assembly.nodup_components _ _) _).symm
  exact ⟨engine.config, hsnapshot ▸ hset⟩

/-- A session sends each diagnostic for the document it was found in, in every pass whose names do not
collide. -/
theorem Session.exists_source_of_mem_sendings {host : Host} {workspace : Option Workspace} {project : String}
    {happenings : List Happening} {sending : Sending}
    (happart : DigestsTellApart (CacheCall.allSources
      (((Session.new (.new host workspace project)).begun happenings).map PassPlan.call)))
    (hsending : sending ∈ (Session.new (.new host workspace project)).sendings happenings)
    (haddresses : (sending.plan.documents.map (·.1)).Nodup)
    (hnames : sending.plan.documents.NamesApart) {address : String} {shown : List Diagnostic}
    {version : Option Int} (hmessage : .diagnostics address shown version ∈ sending.messages) :
    ∃ document, (address, document) ∈ sending.plan.documents.opened ∧
      ∀ diagnostic ∈ shown, ∃ finding ∈ sending.set.findings,
        diagnostic = .ofFinding finding ∧
          (sending.plan.assembly.build sending.plan.version).module? finding.module =
            some (document.source sending.plan.project) := by
  obtain ⟨config, hset⟩ := set_eq_of_mem_sendings happart hsending
  apply PassPlan.LandsWhereRead.exists_source _ hmessage
  apply PassPlan.landsWhereRead_of_namesApart haddresses _ hnames
  rw [hset]
  exact fun finding hfinding ↦ Runner.liesIn_builtInSet hfinding

/-! ## Names that collide -/

/-- Of several documents with one name, the module is not read from the one listed first. -/
theorem Documents.exists_source_of_mem {first other : Located} {rest : Documents}
    (hother : other ∈ rest) (project : String) (version : Nat) :
    ∃ read ∈ rest, read.2.name = other.2.name ∧
      ((Documents.assembly (first :: rest) project).build version).module?
        ⟨project, read.2.name⟩ = some (read.2.source project) := by
  have hsome : (rest.reverse.find? (·.2.name == other.2.name)).isSome = true := by
    rw [List.find?_isSome]
    exact ⟨other, List.mem_reverse.2 hother, beq_self_eq_true _⟩
  obtain ⟨read, hread⟩ := Option.isSome_iff_exists.1 hsome
  have hnamed := List.find?_some hread
  have hname : read.2.name = other.2.name := eq_of_beq hnamed
  refine ⟨read, List.mem_reverse.1 (List.mem_of_find?_eq_some hread), hname, ?_⟩
  rw [hname, module?_build, List.reverse_cons, List.find?_append, hread, Option.some_or,
    Option.map_some]

/-- An open document that is listed first shows what is found under its name. -/
theorem shownIn?_opened_cons {first : Located} {rest : Documents} {component : String}
    (hopen : first.2.isOpen = true) (hsame : sameName first.2.name component = true) :
    shownIn? (Documents.opened (first :: rest)) component = some first.1 := by
  rw [Documents.opened, List.filter_cons, if_pos hopen, shownIn?, List.find?_cons, hsame]
  rfl

/-- The texts that tell the document at one address from all others. -/
def textOnlyAt (address other : String) : String := if other = address then "x" else ""

/-- An open document that is listed first shows what is found in another document of its name. -/
theorem not_landsWhereRead_of_collision {located other : Located} {rest : Documents}
    (hopen : located.2.isOpen = true) (hother : other ∈ rest)
    (hsame : sameName located.2.name other.2.name = true)
    (haddress : ∀ known ∈ rest, known.1 ≠ located.1) :
    let plan : PassPlan :=
      ⟨1, "P", 0, Documents.withTexts (located :: rest) (textOnlyAt located.1)⟩
    let snapshot := plan.assembly.build plan.version
    ¬ plan.LandsWhereRead snapshot (Runner.builtInSet .default snapshot) := by
  intro plan snapshot hlands
  let shown : Located := (located.1, { located.2 with text := "x" })
  let blank := Documents.withTexts rest (textOnlyAt located.1)
  have hdocuments : plan.documents = shown :: blank := by
    simp [plan, shown, blank, Documents.withTexts, textOnlyAt]
  obtain ⟨read, hread, hname, hsource⟩ : ∃ read ∈ blank, read.2.name = other.2.name ∧
      snapshot.module? ⟨"P", read.2.name⟩ = some (read.2.source "P") := by
    have hmem : (other.1, { other.2 with text := textOnlyAt located.1 other.1 }) ∈ blank :=
      List.mem_map_of_mem hother
    change ∃ read ∈ blank, _ ∧ ((plan.documents.assembly "P").build 1).module? _ = _
    rw [hdocuments]
    exact Documents.exists_source_of_mem hmem "P" 1
  have hblank : read.2.text = "" := by
    obtain ⟨original, horiginal, rfl⟩ := List.mem_map.1 hread
    exact if_neg (haddress original horiginal)
  -- The blank text lacks an option, which is found in its module and shown in the first document.
  have hparsed : (read.2.source "P").parsed = readModule read.2.name "" :=
    congrArg (readModule read.2.name) hblank
  obtain ⟨finding, hfinding, hmodule⟩ := Runner.exists_finding_of_empty hsource hparsed
  have hshown : shownIn? plan.documents.opened finding.module.component = some located.1 := by
    have hcomponent : finding.module.component = other.2.name :=
      (congrArg ModuleName.component hmodule).trans hname
    rw [hdocuments, hcomponent]
    exact shownIn?_opened_cons hopen hsame
  have hopened : shown ∈ plan.documents.opened :=
    List.mem_filter.2 ⟨hdocuments ▸ List.mem_cons_self, hopen⟩
  have hlanded := hlands shown hopened finding (List.mem_filter.2 ⟨hfinding, beq_iff_eq.2 hshown⟩)
  rw [hmodule] at hlanded
  have hsources := Option.some.inj (hsource.symm.trans hlanded)
  have htext : Sha256.hex read.2.text.toUTF8 = Sha256.hex "x".toUTF8 :=
    congrArg ModuleSource.contentHash hsources
  rw [hblank] at htext
  exact absurd htext (by decide +kernel)

/-- Whatever the texts of the documents are and in whatever order they are listed, each finding is
shown in the document from whose text it was found, if and only if no open document shares its name
with another document. -/
theorem diagnostics_land_where_read_iff (documents : Documents)
    (haddresses : (documents.map (·.1)).Nodup) :
    (∀ (texts : String → String) (plan : PassPlan) (config : Config),
      plan.documents.Perm (documents.withTexts texts) →
        let snapshot := plan.assembly.build plan.version
        plan.LandsWhereRead snapshot (Runner.builtInSet config snapshot)) ↔
      documents.NamesApart := by
  constructor
  · intro hlands located hlocated hopen other hother hsame
    by_contra hne
    let rest := documents.erase located
    have hperm : documents.Perm (located :: rest) := List.perm_cons_erase hlocated
    have hrest : other ∈ rest := (List.mem_erase_of_ne hne).2 hother
    have haddress : ∀ known ∈ rest, known.1 ≠ located.1 := by
      intro known hknown heq
      have hnodup := (hperm.map (·.1)).nodup_iff.1 haddresses
      rw [List.map_cons, List.nodup_cons] at hnodup
      exact hnodup.1 (heq ▸ List.mem_map_of_mem hknown)
    have hlisted : (Documents.withTexts (located :: rest) (textOnlyAt located.1)).Perm
        (documents.withTexts (textOnlyAt located.1)) := hperm.symm.map _
    apply not_landsWhereRead_of_collision hopen hrest hsame haddress
    exact hlands (textOnlyAt located.1) _ .default hlisted
  · intro hapart texts plan config hperm snapshot
    have haddresses' : (plan.documents.map (·.1)).Nodup := by
      rw [(hperm.map (·.1)).nodup_iff, Documents.withTexts, List.map_map]
      exact haddresses
    exact PassPlan.landsWhereRead_of_namesApart haddresses'
      (fun finding hfinding ↦ Runner.liesIn_builtInSet hfinding)
      ((hapart.withTexts texts).perm hperm)

def separateDocuments : Documents :=
  [("file:///w/A.bas", ⟨"A", .standardModule, "", true, some 1⟩),
    ("file:///w/B.bas", ⟨"B", .standardModule, "", false, none⟩)]

theorem separateDocuments_land_where_read :
    (separateDocuments.map (·.1)).Nodup ∧
      ∀ (texts : String → String) (plan : PassPlan) (config : Config),
        plan.documents.Perm (separateDocuments.withTexts texts) →
          let snapshot := plan.assembly.build plan.version
          plan.LandsWhereRead snapshot (Runner.builtInSet config snapshot) := by
  have haddresses : (separateDocuments.map (·.1)).Nodup := by decide
  have hapart : separateDocuments.NamesApart := by decide
  exact ⟨haddresses, (diagnostics_land_where_read_iff separateDocuments haddresses).2 hapart⟩

namespace Session

/-! ### A document that hides another -/

def oneComponent : Workspace where
  root := "/w"
  files := .ofPlaces [("/w", .directory [("M.bas", .file "Sub Foo()\nEnd Sub\n".toUTF8)])]

def missingInComponent : Diagnostic where
  range := ⟨⟨0, 0⟩, ⟨1, 7⟩⟩
  severity := 1
  code := "OptionExplicit"
  message := "'Option Explicit' is not specified in 'M'."
  isUnnecessary := false
  category := .codeQualityIssues
  snapshotVersion := 1

/-- The workspace is loaded, and then a document is opened whose name differs from that of the
component in the case of a letter. -/
def shadowing : List Happening :=
  .arrives .initialized :: alone 0 3 ++
    opening 1 "file:///w/sub/m.bas" "Option Explicit\n" 1 ++ alone 1 5

theorem run_initialized :
    (Session.new (.new .plain (some oneComponent) "P")).run (.arrives .initialized :: alone 0 3) =
      { server :=
          { host := .plain
            workspace := some oneComponent
            project := "P"
            documents :=
              [("file:///w/M.bas", ⟨"M", .standardModule, "Sub Foo()\nEnd Sub\n", false, none⟩)]
            engines := #[.builtIn .default, .builtIn .default]
            cache := .empty
            version := 0
            isSending := false }
        tasks := #[.finished]
        sent := [.log 3 "vbinspect LSP server initialized"] } := by
  have hconfig :
      loadConfigBy Host.plain.parseConfig? oneComponent.files oneComponent.root = .ok none := by
    decide +kernel
  have hcomponents : Host.plain.loadComponents? oneComponent.files oneComponent.root =
      some [⟨"/w/M.bas", "M", .standardModule, "Sub Foo()\nEnd Sub\n"⟩] := by
    decide +kernel
  have haddress : Host.plain.addressOf? "/w/M.bas" = some "file:///w/M.bas" := by
    decide +kernel
  let started := (Session.new (.new .plain (some oneComponent) "P")).start .initialized
  have htask : started.tasks[0]? = some .loadConfig := rfl
  calc
    (Session.new (.new .plain (some oneComponent) "P")).run (.arrives .initialized :: alone 0 3) =
        started.run (alone 0 3) := rfl
    _ = _ := by
      rw [run_alone htask rfl]
      simp [started, Server.steps, Server.step, Server.loadConfig, Server.loadDocuments,
        Session.start, Session.new, Server.new, hconfig, hcomponents, haddress, Server.takeIn,
        Documents.putNew, Documents.find?, Documents.put, Server.documentOnDisk,
        Notification.task]

theorem diagnostics_of_hidden_component :
    ((Session.new (.new .plain (some oneComponent) "P")).run shadowing).sent =
      [.log 3 "vbinspect LSP server initialized",
        .diagnostics "file:///w/sub/m.bas" [missingInComponent] (some 1)] := by
  let documents : Documents :=
    [("file:///w/M.bas", ⟨"M", .standardModule, "Sub Foo()\nEnd Sub\n", false, none⟩),
      ("file:///w/sub/m.bas", ⟨"m", .standardModule, "Option Explicit\n", true, some 1⟩)]
  let plan : PassPlan := ⟨1, "P", 1, documents⟩
  have hdocument : Server.openDocument? .plain "file:///w/sub/m.bas" "Option Explicit\n" 1 =
      some ⟨"m", .standardModule, "Option Explicit\n", true, some 1⟩ := by
    decide +kernel
  let built := plan.assembly.buildCached 1 .empty
  have hbuilt : built.1 = plan.assembly.snapshot 1 :=
    Assembly.build_eq_snapshot (by decide +kernel) 1
  have hmessages : Server.messages [] plan
      (Runner.builtInSet .default (plan.assembly.snapshot 1)) =
        [.diagnostics "file:///w/sub/m.bas" [missingInComponent] (some 1)] := by
    decide +kernel
  let engine : Engine Collector := .builtIn .default
  let pass := engine.begin built.1
  let begun : Session :=
    { server :=
        { host := .plain, workspace := some oneComponent, project := "P", documents
          engines := #[engine, pass.2], cache := built.2, version := 1, isSending := false }
      tasks := #[.finished, .run plan pass.1]
      sent := [.log 3 "vbinspect LSP server initialized"] }
  have hbegun : (Session.run _ _).run (opening 1 "file:///w/sub/m.bas" "Option Explicit\n" 1) =
      begun := (congrArg (Session.run · _) run_initialized).trans (run_opening rfl hdocument rfl)
  have htask : begun.tasks[1]? = some (.run plan pass.1) := rfl
  have hkeeps : engine.KeepsRules .builtIn .default := Engine.keepsRules_new _ _
  have hcount : plan.documents.opened.length = 1 := rfl
  obtain ⟨successor, hrun⟩ := run_begun rfl htask hkeeps rfl (Store.admits_empty _) hcount
  have hsent : (begun.run (alone 1 5)).sent =
      begun.sent ++ Server.messages [] plan (Runner.builtInSet .default built.1) :=
    congrArg Session.sent hrun
  rw [shadowing, run_append, run_append, hbegun, hsent, hbuilt, hmessages]
  exact List.singleton_append

end Session

end VbaLint.Editor
