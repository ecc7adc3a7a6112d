import VbaLint.Proofs.Editor.Closing
import VbaLint.Proofs.Editor.Placement
import VbaLint.Proofs.Editor.Turns

/-!
# What is known after some turns

What the editor said and what was on disk determine, address by address, which document is known
after some turns, which configuration is in use, and how many passes were made.
-/

namespace VbaLint.Editor

open Files Text

/-! ## Tables of documents -/

namespace Documents

variable {documents : Documents} {address other : String} {document : Document}

theorem find?_cons (located : Located) (documents : Documents) (address : String) :
    find? (located :: documents) address =
      if located.1 = address then some located.2 else documents.find? address := by
  obtain ⟨known, document⟩ := located
  rw [find?, List.lookup_cons, BEq.comm]
  by_cases heq : known = address
  · rw [if_pos heq, beq_iff_eq.2 heq]
  · rw [if_neg heq, beq_eq_false_iff_ne.2 heq]
    rfl

theorem mem_of_find? (h : documents.find? address = some document) :
    (address, document) ∈ documents := by
  induction documents with
  | nil => cases h
  | cons first rest ih =>
    rw [find?_cons] at h
    split at h
    · next heq =>
      cases h
      exact heq ▸ List.mem_cons_self
    · exact List.mem_cons_of_mem _ (ih h)

theorem find?_of_mem (hnodup : (documents.map (·.1)).Nodup) (h : (address, document) ∈ documents) :
    documents.find? address = some document := by
  induction documents with
  | nil => cases h
  | cons first rest ih =>
    rw [List.map_cons, List.nodup_cons] at hnodup
    rw [find?_cons]
    rcases List.mem_cons.1 h with rfl | hrest
    · exact if_pos rfl
    · rw [if_neg, ih hnodup.2 hrest]
      exact fun heq ↦ hnodup.1 (heq ▸ List.mem_map_of_mem hrest)

/-- In a table with each address once, lookups find the entries. -/
theorem mem_iff_find? (hnodup : (documents.map (·.1)).Nodup) {located : Located} :
    located ∈ documents ↔ documents.find? located.1 = some located.2 :=
  ⟨find?_of_mem hnodup, mem_of_find?⟩

@[simp]
theorem find?_put (documents : Documents) (other : String) (document : Document)
    (address : String) :
    (documents.put other document).find? address =
      if other = address then some document else documents.find? address := by
  induction documents with
  | nil => rw [put, find?_cons]
  | cons first rest ih =>
    rw [put]
    split
    · next heq =>
      rw [find?_cons, find?_cons, heq]
      split <;> rfl
    · next hne =>
      rw [find?_cons, find?_cons, ih]
      split
      · next hfirst => rw [if_neg fun heq ↦ hne (hfirst.trans heq.symm)]
      · rfl

theorem find?_putNew (documents : Documents) (other : String) (document : Document)
    (address : String) :
    (documents.putNew other document).find? address =
      (documents.find? address).or (if other = address then some document else none) := by
  unfold putNew
  split
  · next hknown =>
    split
    · next heq =>
      obtain ⟨known, hfound⟩ := Option.isSome_iff_exists.1 hknown
      rw [← heq, hfound, Option.some_or]
    · rw [Option.or_none]
  · next hunknown =>
    rw [find?_put]
    split
    · next heq =>
      rw [heq, Option.not_isSome_iff_eq_none] at hunknown
      rw [hunknown, Option.none_or]
    · rw [Option.or_none]

/-- Of the components on disk with one address the first is taken in. -/
theorem find?_foldl_takeIn (host : Host) (components : List LoadedComponent) (documents : Documents)
    (address : String) :
    (components.foldl (Server.takeIn host) documents).find? address =
      (documents.find? address).or
        ((components.find? fun component ↦ host.addressOf? component.path = some address).map
          Server.documentOnDisk) := by
  induction components generalizing documents with
  | nil => simp
  | cons component rest ih =>
    rw [List.foldl_cons, ih, List.find?_cons, Server.takeIn]
    cases hpath : host.addressOf? component.path with
    | none => simp
    | some known =>
      rw [find?_putNew, Option.or_assoc]
      by_cases heq : known = address <;> simp [heq]

@[simp]
theorem find?_close (documents : Documents) (other address : String) :
    (documents.close other).find? address =
      if other = address then (documents.find? address).map ({ · with isOpen := false })
      else documents.find? address := by
  induction documents with
  | nil => simp [close, find?]
  | cons first rest ih =>
    rw [close, List.map_cons, ← close, find?_cons, find?_cons, ih]
    grind

/-- A document that is closed stays known. -/
theorem map_fst_close (documents : Documents) (address : String) :
    (documents.close address).map (·.1) = documents.map (·.1) := by
  rw [close, List.map_map]
  apply List.map_congr_left
  intro located _
  simp only [Function.comp_apply]
  split
  · next heq => exact heq.symm
  · rfl

/-- No address is listed twice. -/
theorem nodup_put (hnodup : (documents.map (·.1)).Nodup) (address : String)
    (document : Document) : ((documents.put address document).map (·.1)).Nodup := by
  induction documents with
  | nil => exact List.nodup_singleton address
  | cons first rest ih =>
    rw [List.map_cons, List.nodup_cons] at hnodup
    rw [put]
    split
    · next heq => exact List.nodup_cons.2 ⟨heq ▸ hnodup.1, hnodup.2⟩
    · next hne =>
      refine List.nodup_cons.2 ⟨?_, ih hnodup.2⟩
      intro hmem
      obtain ⟨located, hlocated, heq⟩ := List.mem_map.1 hmem
      rcases mem_put hlocated with rfl | hrest
      · exact hne heq.symm
      · exact hnodup.1 (List.mem_map.2 ⟨located, hrest, heq⟩)

theorem nodup_takeIn (hnodup : (documents.map (·.1)).Nodup) (host : Host)
    (component : LoadedComponent) :
    ((Server.takeIn host documents component).map (·.1)).Nodup := by
  unfold Server.takeIn
  split
  · exact hnodup
  unfold putNew
  split
  · exact hnodup
  · exact nodup_put hnodup _ _

/-- Components taken in from disk do not list an address twice. -/
theorem nodup_foldl_takeIn (hnodup : (documents.map (·.1)).Nodup) (host : Host)
    (components : List LoadedComponent) :
    ((components.foldl (Server.takeIn host) documents).map (·.1)).Nodup := by
  induction components generalizing documents with
  | nil => exact hnodup
  | cons component rest ih => exact ih (nodup_takeIn hnodup host component)

end Documents

/-! ## What a turn adds -/

/-- Where a session takes place: the host, and the root of the workspace if there is one. -/
structure Home where
  host : Host
  root : Option String

def Home.of (host : Host) (workspace : Option Workspace) : Home := ⟨host, workspace.map (·.root)⟩

@[simp]
theorem Home.host_of (host : Host) (workspace : Option Workspace) : (of host workspace).host = host := rfl

def Server.home (server : Server) : Home := .of server.host server.workspace

namespace Notification

def text? : Notification → Option (String × String × Int)
  | .opened address text version => some (address, text, version)
  | .changed address texts version => texts.getLast?.map (address, ·, version)
  | _ => none

/-- A text comes in by the task that takes it in. -/
theorem task_of_text? {notification : Notification} {address text : String} {version : Int}
    (h : notification.text? = some (address, text, version)) :
    notification.task = .edit address text version := by
  cases notification with
  | opened => cases h; rfl
  | changed other texts number =>
    obtain ⟨last, hlast, heq⟩ := Option.map_eq_some_iff.1 h
    cases heq
    rw [task, hlast]
  | _ => cases h

end Notification

theorem Server.openDocument?_eq_some {host : Host} {address text : String} {version : Int}
    {document : Document} (h : openDocument? host address text version = some document) :
    document.text = text ∧ document.isOpen = true ∧ document.version = some version := by
  simp only [openDocument?, Option.bind_eq_bind, Option.bind_eq_some_iff] at h
  obtain ⟨path, -, type, -, heq⟩ := h
  cases heq
  exact ⟨rfl, rfl, rfl⟩

/-- Whether an address names a file with a component does not depend on the text. -/
theorem Server.isSome_openDocument? (host : Host) (address text : String) (version : Int) :
    (openDocument? host address text version).isSome =
      ((host.pathOf? address).bind ComponentType.ofPath?).isSome := by
  cases hpath : host.pathOf? address with
  | none => simp [openDocument?, hpath]
  | some path => cases htype : ComponentType.ofPath? path <;> simp [openDocument?, hpath, htype]

namespace Turn

variable (turn : Turn) (home : Home)

/-- The document that the editor gives a text for, with its address; none if the address names no
file with a component. -/
def given? : Option Located :=
  turn.notification.text?.bind fun (address, text, version) ↦
    (Server.openDocument? home.host address text version).map (address, ·)

/-- The components on disk, if the workspace is loaded now and all of them can be read. -/
def found : List LoadedComponent :=
  match turn.notification, home.root with
  | .initialized, some root => (home.host.loadComponents? turn.files root).getD []
  | _, _ => []

/-- The configuration of the workspace, if it is loaded now and is valid. -/
def configured? : Option Config :=
  match turn.notification, home.root with
  | .initialized, some root =>
    (loadConfigBy home.host.parseConfig? turn.files root).toOption.map (·.getD .default)
  | _, _ => none

/-- The document known at an address after the turn, where `before` is the one known before it: a
text of the editor replaces it, a component on disk does not, and when it is closed its text stays. -/
def documentAfter (address : String) (before : Option Document) : Option Document :=
  match turn.given? home with
  | some located => if located.1 = address then some located.2 else before
  | none =>
    if turn.notification = .closed address then before.map ({ · with isOpen := false })
    else
      before.or <|
        ((turn.found home).find? fun component ↦
          home.host.addressOf? component.path = some address).map Server.documentOnDisk

variable {turn : Turn} {home : Home}

/-- Only the end of the initialisation installs a configuration. -/
theorem configured?_of_ne (h : turn.notification ≠ .initialized) : turn.configured? home = none := by
  unfold configured?
  split
  · next hturn _ => exact absurd hturn h
  · rfl

/-- Only the end of the initialisation looks for components on disk. -/
theorem found_of_ne (h : turn.notification ≠ .initialized) : turn.found home = [] := by
  unfold found
  split
  · next hturn _ => exact absurd hturn h
  · rfl

/-- Other turns than those that load the workspace, give a text or close a document change none. -/
theorem documentAfter_of_idle (hgiven : turn.given? home = none)
    (hinitialized : turn.notification ≠ .initialized) {address : String}
    (hclosed : turn.notification ≠ .closed address) (before : Option Document) :
    turn.documentAfter home address before = before := by
  rw [documentAfter, hgiven, found_of_ne hinitialized]
  simp [hclosed]

end Turn

/-! ## What some turns come to -/

def documentAt (home : Home) (turns : List Turn) (address : String) : Option Document :=
  turns.foldl (fun before turn ↦ turn.documentAfter home address before) none

def configAfter (home : Home) (turns : List Turn) : Config :=
  turns.foldl (fun before turn ↦ (turn.configured? home).getD before) .default

/-- A turn triggers a pass if the editor gives the text of a component in it, or saves a document
that is known. -/
def Turn.triggers (home : Home) (before : List Turn) (turn : Turn) : Bool :=
  match turn.notification with
  | .saved address => (documentAt home before address).isSome
  | _ => (turn.given? home).isSome

/-- A text triggers a pass exactly if the address leads to a component. -/
theorem Turn.triggers_of_text? {home : Home} {before : List Turn} {turn : Turn}
    {given : String × String × Int} (h : turn.notification.text? = some given) :
    turn.triggers home before = (turn.given? home).isSome := by
  unfold triggers
  split
  · next hsaved => simp [hsaved, Notification.text?] at h
  · rfl

/-- How many of some turns trigger a pass, where `before` came before them. -/
def passesFrom (home : Home) (before : List Turn) : List Turn → Nat
  | [] => 0
  | turn :: rest =>
    (turn.triggers home before).toNat + passesFrom home (before ++ [turn]) rest

def passes (home : Home) (turns : List Turn) : Nat := passesFrom home [] turns

section

variable {home : Home} (before turns : List Turn) (turn : Turn) (address : String)

@[simp]
theorem documentAt_concat :
    documentAt home (turns ++ [turn]) address =
      turn.documentAfter home address (documentAt home turns address) :=
  List.foldl_append

@[simp]
theorem configAfter_concat :
    configAfter home (turns ++ [turn]) =
      (turn.configured? home).getD (configAfter home turns) :=
  List.foldl_append

theorem passesFrom_append (more : List Turn) :
    passesFrom home before (turns ++ more) =
      passesFrom home before turns + passesFrom home (before ++ turns) more := by
  induction turns generalizing before with
  | nil => simp [passesFrom]
  | cons turn rest ih => simp [passesFrom, ih, Nat.add_assoc]

@[simp]
theorem passes_concat :
    passes home (turns ++ [turn]) = passes home turns + (turn.triggers home turns).toNat := by
  rw [passes, passesFrom_append]
  rfl

theorem passes_le_append (home : Home) (more : List Turn) :
    passes home turns ≤ passes home (turns ++ more) := by
  rw [passes, passes, passesFrom_append]
  exact Nat.le_add_right _ _

/-- Passes are numbered in order. -/
theorem passes_lt_passes {turns} {turn : Turn} (htriggers : turn.triggers home turns = true)
    (hbegins : before <+: turns) : passes home before < passes home (turns ++ [turn]) := by
  obtain ⟨more, rfl⟩ := hbegins
  have hle := passes_le_append before home more
  rw [passes_concat, htriggers]
  exact Nat.lt_succ_of_le hle

end

/-! ## Open documents -/

def IsOpenAt (home : Home) (turns : List Turn) (address : String) : Prop :=
  ∃ document, documentAt home turns address = some document ∧ document.isOpen = true

namespace Turn

variable {turn : Turn} {home : Home} {address : String} {before : Option Document}
  {document : Document}

theorem given?_eq_some {located : Located} :
    turn.given? home = some located ↔ ∃ text version,
      turn.notification.text? = some (located.1, text, version) ∧
        Server.openDocument? home.host located.1 text version = some located.2 := by
  obtain ⟨address, document⟩ := located
  simp [given?, Option.bind_eq_some_iff]

/-- A document that is open after a turn was given in it, or was open before and is not closed. -/
theorem given?_or_of_isOpen (h : turn.documentAfter home address before = some document)
    (hopen : document.isOpen = true) :
    turn.given? home = some (address, document) ∨
      before = some document ∧ turn.notification ≠ .closed address ∧
        ∀ located, turn.given? home = some located → located.1 ≠ address := by
  unfold documentAfter at h
  split at h
  · next located hgiven =>
    split at h
    · next heq =>
      cases h
      exact .inl (by rw [hgiven, ← heq])
    · next hne =>
      refine .inr ⟨h, ?_, ?_⟩
      · intro hclosed
        simp [given?, hclosed, Notification.text?] at hgiven
      · intro other hother
        rwa [← Option.some.inj (hgiven.symm.trans hother)]
  · next hnone =>
    split at h
    · obtain ⟨known, -, rfl⟩ := Option.map_eq_some_iff.1 h
      cases hopen
    · next hclosed =>
      rcases Option.or_eq_some_iff.1 h with hbefore | ⟨-, hfound⟩
      · exact .inr ⟨hbefore, hclosed, fun located hlocated ↦ by cases hnone.symm.trans hlocated⟩
      · obtain ⟨component, -, rfl⟩ := Option.map_eq_some_iff.1 hfound
        cases hopen

end Turn

/-- A document stays open until it is closed. -/
theorem IsOpenAt.concat {home : Home} {turns : List Turn} {turn : Turn}
    {address : String} (h : IsOpenAt home turns address)
    (hclosed : turn.notification ≠ .closed address) :
    IsOpenAt home (turns ++ [turn]) address := by
  obtain ⟨document, hdocument, hopen⟩ := h
  rw [IsOpenAt, documentAt_concat, hdocument, Turn.documentAfter]
  split
  · next located hgiven =>
    split
    · obtain ⟨text, version, -, hfound⟩ := Turn.given?_eq_some.1 hgiven
      exact ⟨located.2, rfl, (Server.openDocument?_eq_some hfound).2.1⟩
    · exact ⟨document, rfl, hopen⟩
  · rw [if_neg hclosed]
    exact ⟨document, rfl, hopen⟩

/-! ## Versions of the editor -/

namespace Notification

def version? (notification : Notification) (address : String) : Option Int :=
  match notification with
  | .opened other _ version | .changed other _ version =>
    if other = address then some version else none
  | _ => none

/-- A document does not change without a text. -/
def CarriesText : Notification → Prop
  | .changed _ texts _ => texts ≠ []
  | _ => True

theorem CarriesText.exists_text {notification : Notification} (h : notification.CarriesText)
    {address : String} {version : Int} (hversion : notification.version? address = some version) :
    ∃ text, notification.text? = some (address, text, version) := by
  cases notification with
  | opened other text number =>
    obtain ⟨rfl, rfl⟩ : other = address ∧ number = version := by simpa [version?] using hversion
    exact ⟨text, rfl⟩
  | changed other texts number =>
    obtain ⟨rfl, rfl⟩ : other = address ∧ number = version := by simpa [version?] using hversion
    exact ⟨texts.getLast h, by rw [text?, List.getLast?_eq_some_getLast h]; rfl⟩
  | _ => cases hversion

theorem version?_of_text? {notification : Notification} {address text : String} {version : Int}
    (h : notification.text? = some (address, text, version)) :
    notification.version? address = some version := by
  cases notification with
  | opened => cases h; exact if_pos rfl
  | changed other texts number =>
    obtain ⟨last, -, heq⟩ := Option.map_eq_some_iff.1 h
    cases heq
    exact if_pos rfl
  | _ => cases h

end Notification

/-- The last version that the editor gave to the document at an address in some turns. -/
def lastVersion (turns : List Turn) (address : String) : Option Int :=
  turns.foldl (fun before turn ↦ (turn.notification.version? address).or before) none

@[simp]
theorem lastVersion_concat (turns : List Turn) (turn : Turn) (address : String) :
    lastVersion (turns ++ [turn]) address =
      (turn.notification.version? address).or (lastVersion turns address) :=
  List.foldl_append

/-- An open document has the last version that the editor gave, if no change came without a text. -/
theorem version_eq_lastVersion {home : Home} {turns : List Turn}
    (htexts : ∀ turn ∈ turns, turn.notification.CarriesText) {address : String}
    {document : Document} (hdocument : documentAt home turns address = some document)
    (hopen : document.isOpen = true) :
    document.version = lastVersion turns address ∧
      ((home.host.pathOf? address).bind ComponentType.ofPath?).isSome = true := by
  induction turns using List.reverseRecOn with
  | nil => cases hdocument
  | append_singleton turns turn ih =>
    rw [documentAt_concat] at hdocument
    rw [lastVersion_concat]
    have htext := htexts turn (List.mem_append_right turns List.mem_cons_self)
    rcases Turn.given?_or_of_isOpen hdocument hopen with hnow | ⟨hbefore, -, hothers⟩
    · obtain ⟨text, version, hgives, hfound⟩ := Turn.given?_eq_some.1 hnow
      rw [Notification.version?_of_text? hgives, Option.some_or,
        (Server.openDocument?_eq_some hfound).2.2, ← Server.isSome_openDocument? _ _ text version,
        hfound]
      exact ⟨rfl, rfl⟩
    · obtain ⟨hlast, hnames⟩ :=
        ih (fun earlier hearlier ↦ htexts earlier (List.mem_append_left _ hearlier)) hbefore
      refine ⟨?_, hnames⟩
      rw [hlast]
      cases hversion : turn.notification.version? address with
      | none => rw [Option.none_or]
      | some version =>
        -- A text for the address would have been taken in.
        obtain ⟨text, hgives⟩ := htext.exists_text hversion
        rw [← Server.isSome_openDocument? _ _ text version, Option.isSome_iff_exists] at hnames
        obtain ⟨given, hfound⟩ := hnames
        have hgiven : turn.given? home = some (address, given) :=
          Turn.given?_eq_some.2 ⟨text, version, hgives, hfound⟩
        exact absurd rfl (hothers _ hgiven)

/-! ## Documents that are told apart -/

/-- No two of the documents known after some turns have component names that are equal in some ASCII
case. -/
def NamesDiffer (home : Home) (turns : List Turn) : Prop :=
  ∀ address document other known, documentAt home turns address = some document →
    documentAt home turns other = some known → sameName document.name known.name = true →
      address = other

/-- Some document has the text after some turns or after the first of them. -/
def TextKnown (home : Home) (turns : List Turn) (text : String) : Prop :=
  ∃ before, before <+: turns ∧
    ∃ address document, documentAt home before address = some document ∧ document.text = text

/-- The digests of all texts that documents have in the course of some turns tell the texts apart. -/
def TextsDiffer (home : Home) (turns : List Turn) : Prop :=
  ∀ text other, TextKnown home turns text → TextKnown home turns other →
    Sha256.hex text.toUTF8 = Sha256.hex other.toUTF8 → text = other

/-- The documents known after some turns, each once. -/
structure Documents.Lists (listing : Documents) (home : Home) (turns : List Turn) :
    Prop where
  nodup : (listing.map (·.1)).Nodup
  mem_iff {located : Located} :
    located ∈ listing ↔ documentAt home turns located.1 = some located.2

namespace Documents.Lists

variable {listing : Documents} {home : Home} {turns : List Turn}

/-- The documents are those of the turns if each address finds what the turns say of it. -/
theorem of_find? (hnodup : (listing.map (·.1)).Nodup)
    (hfind : ∀ address, listing.find? address = documentAt home turns address) :
    Lists listing home turns :=
  ⟨hnodup, fun {located} ↦ by rw [mem_iff_find? hnodup, hfind]⟩

/-- What an address finds is what the turns say of it. -/
theorem find?_eq (h : Lists listing home turns) (address : String) :
    listing.find? address = documentAt home turns address := by
  apply Option.ext
  intro document
  have hmem : (address, document) ∈ listing ↔ listing.find? address = some document :=
    mem_iff_find? h.nodup
  exact hmem.symm.trans h.mem_iff

theorem perm (h : Lists listing home turns) {other : Documents} (hperm : other.Perm listing) :
    Lists other home turns :=
  ⟨(hperm.map _).nodup_iff.2 h.nodup, hperm.mem_iff.trans h.mem_iff⟩

theorem namesApart (h : Lists listing home turns) (hnames : NamesDiffer home turns) :
    listing.NamesApart := by
  intro located hlocated _ other hother hsame
  have haddress := hnames _ _ _ _ (h.mem_iff.1 hlocated) (h.mem_iff.1 hother) hsame
  exact List.inj_on_of_nodup_map h.nodup hother hlocated haddress.symm

theorem textKnown (h : Lists listing home turns) {located : Located} (hmem : located ∈ listing) :
    TextKnown home turns located.2.text :=
  ⟨turns, List.prefix_rfl, located.1, located.2, h.mem_iff.1 hmem, rfl⟩

end Documents.Lists

/-- A text that was known stays known. -/
theorem TextKnown.mono {home : Home} {turns more : List Turn} {text : String}
    (h : TextKnown home turns text) (hbegins : turns <+: more) : TextKnown home more text := by
  obtain ⟨before, hbefore, hknown⟩ := h
  exact ⟨before, hbefore.trans hbegins, hknown⟩

/-- Fewer turns give fewer texts to tell apart. -/
theorem TextsDiffer.mono {home : Home} {turns fewer : List Turn}
    (h : TextsDiffer home turns) (hbegins : fewer <+: turns) : TextsDiffer home fewer :=
  fun text other htext hother ↦ h text other (htext.mono hbegins) (hother.mono hbegins)

/-- Without a workspace the documents known are those that the editor gave. -/
theorem exists_given_of_documentAt {home : Home} (hroot : home.root = none) {turns : List Turn}
    {address : String} {document : Document} (h : documentAt home turns address = some document) :
    ∃ turn ∈ turns, ∃ given, turn.given? home = some (address, given) ∧
      document = { given with isOpen := document.isOpen } := by
  induction turns using List.reverseRecOn generalizing document with
  | nil => cases h
  | append_singleton turns turn ih =>
    have hearlier {known : Document} (hknown : documentAt home turns address = some known) :
        ∃ turn' ∈ turns ++ [turn], ∃ given, turn'.given? home = some (address, given) ∧
          known = { given with isOpen := known.isOpen } := by
      obtain ⟨earlier, hmem, hgiven⟩ := ih hknown
      exact ⟨earlier, List.mem_append_left _ hmem, hgiven⟩
    rw [documentAt_concat, Turn.documentAfter] at h
    split at h
    · next located hgiven =>
      split at h
      · next heq =>
        cases h
        exact ⟨turn, List.mem_append_right _ List.mem_cons_self, located.2, heq ▸ hgiven, rfl⟩
      · exact hearlier h
    · split at h
      · obtain ⟨known, hknown, rfl⟩ := Option.map_eq_some_iff.1 h
        obtain ⟨earlier, hmem, given, hgiven, heq⟩ := hearlier hknown
        exact ⟨earlier, hmem, given, hgiven, by rw [heq]⟩
      · have hfound : turn.found home = [] := by simp [Turn.found, hroot]
        rw [hfound] at h
        exact hearlier (by simpa using h)

end VbaLint.Editor
