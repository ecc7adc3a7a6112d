import VbaLint.Proofs.Module.Openings
import VbaLint.Proofs.Source.Comments

/-!
# Directives and the statements behind them

A directive that does not concern the whole module waits for the first statement behind its comment that
is no part of the file header. It is attached to the node of this statement, or to the node of the block
whose line the statement is. The end line of a member makes no node and drops what waits for it.
-/

namespace VbaLint

open Source Statement Text Tree

/-! ## What a directive waits for -/

/-- The directive concerns the whole module, wherever it stands. -/
def Statement.Directive.concernsModule : Directive → Bool
  | ignoreModule _ | folder _ => true
  | ignore _ | description _ => false

/-- The first of some statements that is no part of the file header. -/
def Header.firstCode? : Header → List Segment → Option Segment
  | _, [] => none
  | header, segment :: rest =>
    if (header.next segment.text).2 then (header.next segment.text).1.firstCode? rest
    else some segment

/-- What a directive is attached to in the end, if `next` is the statement that it waits for, and the
statements `done` have made nodes before. -/
inductive Tree.SyntaxTree.Receives (tree : SyntaxTree) (openings : Openings) (done : List Segment) :
    Option Segment → Option Nat → Prop
  | endOfText : tree.Receives openings done none none
  | endOfMember {next : Segment} (hends : openings.endsMember next.text = true) :
    tree.Receives openings done (some next) none
  | lineOfBlock {next opener : Segment} {node : Nat} (hopen : openings.block = true)
    (hopener : done.getLast? = some opener) (hopens : (shapeOf opener.text).opensBlock = true)
    (hnode : tree.statementNodes[done.length - 1]? = some node)
    (hrenders : tree.Renders node opener) : tree.Receives openings done (some next) (some node)
  | statement {next : Segment} {node : Nat} (hclosed : openings.block = false)
    (hstays : openings.endsMember next.text = false)
    (hnode : tree.statementNodes[done.length]? = some node) (hrenders : tree.Renders node next) :
    tree.Receives openings done (some next) (some node)

namespace Tree.SyntaxTree.Receives

variable {tree : SyntaxTree} {openings : Openings} {done : List Segment} {next : Option Segment}
  {target : Option Nat}

/-- Where reading stands in the file header makes no difference. -/
theorem of_header {header : Header}
    (h : tree.Receives { openings with header } done next target) :
    tree.Receives openings done next target := by
  cases h with
  | endOfText => exact .endOfText
  | endOfMember hends => exact .endOfMember hends
  | lineOfBlock hopen hopener hopens hnode hrenders =>
    exact .lineOfBlock hopen hopener hopens hnode hrenders
  | statement hclosed hstays hnode hrenders => exact .statement hclosed hstays hnode hrenders

/-- A directive is attached to nothing exactly at the end of the text and at the end of a member. -/
theorem eq_none_iff (h : tree.Receives openings done next target) :
    target = none ↔ next = none ∨
      ∃ segment, next = some segment ∧ openings.endsMember segment.text = true := by
  cases h with
  | endOfText => simp
  | endOfMember hends => simp [hends]
  | lineOfBlock hopen => simp [Openings.endsMember, hopen]
  | statement _ hstays => simp [hstays]

theorem lt_size {node : Nat} (h : tree.Receives openings done next (some node)) :
    node < tree.size := by
  cases h with
  | lineOfBlock _ _ _ _ hrenders => exact hrenders.lt_size
  | statement _ _ _ hrenders => exact hrenders.lt_size

end Tree.SyntaxTree.Receives

namespace Reading

variable {reading : Reading} {segments : List Segment}

/-! ## What one statement does -/

theorem closeProcedure_attach (reading : Reading) (node : Nat) :
    (reading.closeProcedure.attach node).annotations = (reading.attach node).annotations := by
  unfold Reading.closeProcedure
  split <;> rfl

/-- What one statement behind the file header does with the directives that wait: all are attached to
the last node of a statement, or all are dropped. -/
structure Settles (reading later : Reading) (drops : Bool) : Prop where
  pending_eq : later.pending = []
  drops_eq : drops = true → later.annotations = reading.annotations
  attaches : drops = false → ∃ node, later.tree.statementNodes.getLast? = some node ∧
    later.annotations = (reading.attach node).annotations

theorem settles_blockLine (reading : Reading) {block : Nat}
    (hlast : reading.tree.statementNodes.getLast? = some block) (segment : Segment) :
    reading.Settles (reading.blockLine block segment) false := by
  refine ⟨?_, nofun, fun _ ↦ ⟨block, ?_, ?_⟩⟩
  · unfold Reading.blockLine
    dsimp only
    split <;> rfl
  · rw [statementNodes_blockLine, hlast]
  · unfold Reading.blockLine
    dsimp only
    split <;> rfl

theorem settles_endProcedure (reading : Reading) (opened : OpenProcedure) (segment : Segment) :
    reading.Settles (reading.endProcedure opened segment) true := by
  refine ⟨?_, fun _ ↦ ?_, nofun⟩
  · unfold Reading.endProcedure Reading.closeProcedure
    split <;> rfl
  · unfold Reading.endProcedure Reading.closeProcedure
    split <;> rfl

theorem Holds.settles_beginProcedure (h : reading.Holds segments) {segment : Segment}
    {signature : Signature} (hshape : shapeOf segment.text = .procedureStart signature) :
    reading.Settles (reading.beginProcedure signature segment) false := by
  refine ⟨rfl, nofun, fun _ ↦ ⟨reading.closeProcedure.tree.size, ?_, ?_⟩⟩
  · rw [h.statementNodes_beginProcedure hshape, List.getLast?_concat]
  · exact closeProcedure_attach reading _

theorem Holds.settles_plainStatement (h : reading.Holds segments) {segment : Segment}
    (hshape : ∀ signature, shapeOf segment.text ≠ .procedureStart signature) :
    reading.Settles (reading.plainStatement (shapeOf segment.text) segment) false := by
  refine ⟨rfl, nofun, fun _ ↦ ⟨(reading.statementParent segment.selection).1.size, ?_, rfl⟩⟩
  rw [h.statementNodes_plainStatement hshape, List.getLast?_concat]

theorem Tracks.settles_codeStatement (h : reading.Tracks segments) (segment : Segment) :
    reading.Settles (reading.codeStatement segment)
      (reading.openings.endsMember segment.text) := by
  have hreads := readsAs_codeStatement reading segment
  generalize reading.codeStatement segment = later,
    (reading.openings.nextCode segment.text).2 = makes,
    reading.openings.endsMember segment.text = drops at hreads ⊢
  cases hreads with
  | blockLine hblock => exact settles_blockLine reading (h.block_last hblock).1 segment
  | @endProcedure opened => exact settles_endProcedure reading opened segment
  | beginProcedure _ hshape => exact h.settles_beginProcedure hshape
  | plainStatement _ hshape => exact h.settles_plainStatement hshape

/-! ## What one comment does -/

theorem comment_of_directive {segment : Segment} {directive : Directive}
    (h : directive? segment.text = some directive) (reading : Reading) :
    reading.comment segment =
      if directive.concernsModule then
        { reading with
          annotations := reading.annotations ++ [⟨directive, .module, segment.selection⟩] }
      else { reading with pending := reading.pending ++ [(directive, segment.selection)] } := by
  unfold Reading.comment
  rw [h]
  cases directive <;> rfl

theorem comment_of_none {segment : Segment} (h : directive? segment.text = none)
    (reading : Reading) : reading.comment segment = reading := by
  unfold Reading.comment
  rw [h]

/-! ## What is recorded of one comment -/

def annotationsAt (annotations : List Annotation) (place : Selection) : List Annotation :=
  annotations.filter (·.selection = place)

theorem annotationsAt_append (annotations added : List Annotation) (place : Selection) :
    annotationsAt (annotations ++ added) place =
      annotationsAt annotations place ++ annotationsAt added place := List.filter_append ..

def pendingAt (reading : Reading) (place : Selection) : List (Directive × Selection) :=
  reading.pending.filter (·.2 = place)

variable {place : Selection}

theorem annotationsAt_attach (reading : Reading) (node : Nat) (place : Selection) :
    annotationsAt (reading.attach node).annotations place =
      annotationsAt reading.annotations place ++
        (reading.pendingAt place).map fun waiting ↦ ⟨waiting.1, .node node, waiting.2⟩ := by
  rw [Reading.attach, annotationsAt_append, annotationsAt, annotationsAt, List.filter_map]
  rfl

theorem Settles.pendingAt_eq {later : Reading} {drops : Bool} (h : reading.Settles later drops)
    (place : Selection) : later.pendingAt place = [] := by
  rw [pendingAt, h.pending_eq, List.filter_nil]

/-- A comment elsewhere does not matter. -/
theorem comment_of_ne {segment : Segment} (h : segment.selection ≠ place) (reading : Reading) :
    (reading.comment segment).pendingAt place = reading.pendingAt place ∧
      annotationsAt (reading.comment segment).annotations place =
        annotationsAt reading.annotations place := by
  cases hdirective : directive? segment.text with
  | none =>
    rw [comment_of_none hdirective]
    exact ⟨rfl, rfl⟩
  | some directive =>
    rw [comment_of_directive hdirective]
    split
    · exact ⟨rfl, by simp [annotationsAt, h]⟩
    · exact ⟨by simp [pendingAt, h], rfl⟩

/-- Where no directive waits, a statement records nothing. -/
theorem Settles.annotationsAt_eq {later : Reading} {drops : Bool} (h : reading.Settles later drops)
    (hwaits : reading.pendingAt place = []) :
    annotationsAt later.annotations place = annotationsAt reading.annotations place := by
  cases drops with
  | true => rw [h.drops_eq rfl]
  | false =>
    obtain ⟨node, -, hattached⟩ := h.attaches rfl
    rw [hattached, annotationsAt_attach, hwaits, List.map_nil, List.append_nil]

theorem Tracks.annotationsAt_item (h : reading.Tracks segments)
    (hwaits : reading.pendingAt place = []) (item : LineItem)
    (hother : ∀ segment, item = .comment segment → segment.selection ≠ place) :
    (reading.item item).pendingAt place = [] ∧
      annotationsAt (reading.item item).annotations place =
        annotationsAt reading.annotations place := by
  cases item with
  | comment segment =>
    obtain ⟨hpending, hsame⟩ := comment_of_ne (hother segment rfl) reading
    exact ⟨hpending.trans hwaits, hsame⟩
  | statement segment =>
    have hmoved := h.withHeader (reading.header.next segment.text).1
    have hsettles := hmoved.settles_codeStatement segment
    rw [Reading.item, statement_eq]
    split
    · exact ⟨hwaits, rfl⟩
    · exact ⟨hsettles.pendingAt_eq place, hsettles.annotationsAt_eq hwaits⟩

/-- Where no directive waits, other lines record nothing. -/
theorem Tracks.annotationsAt_foldl_item (h : reading.Tracks segments)
    (hwaits : reading.pendingAt place = []) {items : List LineItem}
    (hothers : ∀ segment, .comment segment ∈ items → segment.selection ≠ place) :
    (items.foldl Reading.item reading).pendingAt place = [] ∧
      annotationsAt (items.foldl Reading.item reading).annotations place =
        annotationsAt reading.annotations place := by
  induction items generalizing reading segments with
  | nil => exact ⟨hwaits, rfl⟩
  | cons item rest ih =>
    obtain ⟨hpending, hsame⟩ := h.annotationsAt_item hwaits item
      fun segment heq ↦ hothers segment (heq ▸ List.mem_cons_self)
    have hread := (h.foldl_item [item]).1
    obtain ⟨hlater, hlast⟩ := ih hread hpending
      fun segment hmem ↦ hothers segment (List.mem_cons_of_mem _ hmem)
    exact ⟨hlater, hlast.trans hsame⟩

/-- A directive that waits is attached, or dropped, when the statement that it waits for is read. -/
theorem Tracks.receives_codeStatement (h : reading.Tracks segments) {directive : Directive}
    (hwaits : reading.pendingAt place = [(directive, place)])
    (hnone : annotationsAt reading.annotations place = []) (segment : Segment)
    {items : List LineItem}
    (hothers : ∀ segment, .comment segment ∈ items → segment.selection ≠ place) :
    ∃ target, (items.foldl Reading.item (reading.codeStatement segment)).tree.Receives
        reading.openings segments (some segment) target ∧
      annotationsAt (items.foldl Reading.item (reading.codeStatement segment)).annotations place =
        target.toList.map fun node ↦ ⟨directive, .node node, place⟩ := by
  have hlater := h.codeStatement segment
  have hsettles := h.settles_codeStatement segment
  have hmakes := reading.openings.makes_nextCode segment.text
  obtain ⟨-, hsame⟩ := hlater.annotationsAt_foldl_item (hsettles.pendingAt_eq place) hothers
  rw [hsame]
  cases hdrops : reading.openings.endsMember segment.text with
  | true =>
    refine ⟨none, .endOfMember hdrops, ?_⟩
    rw [hsettles.drops_eq hdrops, hnone]
    rfl
  | false =>
    obtain ⟨node, hlast, hattached⟩ := hsettles.attaches hdrops
    refine ⟨some node, ?_, ?_⟩
    · rw [hdrops, Bool.not_false, Bool.and_true] at hmakes
      rw [hmakes] at hlater
      cases hblock : reading.openings.block with
      | true =>
        rw [hblock] at hlater
        obtain ⟨block, hopen⟩ := Option.isSome_iff_exists.1 hblock
        obtain ⟨-, opener, hopener, hopens⟩ := h.block_last hopen
        obtain ⟨hnode, hrenders⟩ := hlater.last_node hopener hlast items
        exact .lineOfBlock hblock hopener hopens hnode hrenders
      | false =>
        rw [hblock] at hlater
        obtain ⟨hnode, hrenders⟩ := hlater.last_node List.getLast?_concat hlast items
        rw [Bool.not_false, if_pos rfl, List.length_append, List.length_singleton,
          Nat.add_sub_cancel] at hnode
        exact .statement hblock hdrops hnode hrenders
    · rw [hattached, annotationsAt_attach, hnone, hwaits]
      rfl

/-- A directive that waits is attached to what it is said to be attached to. -/
theorem Tracks.receives_foldl_item (h : reading.Tracks segments) {directive : Directive}
    (hwaits : reading.pendingAt place = [(directive, place)])
    (hnone : annotationsAt reading.annotations place = []) {items : List LineItem}
    (hothers : ∀ segment, .comment segment ∈ items → segment.selection ≠ place) :
    ∃ target, (items.foldl Reading.item reading).tree.Receives reading.openings segments
        (reading.header.firstCode? (items.filterMap (·.statement?))) target ∧
      annotationsAt (items.foldl Reading.item reading).annotations place =
        target.toList.map fun node ↦ ⟨directive, .node node, place⟩ := by
  induction items generalizing reading with
  | nil => exact ⟨none, .endOfText, hnone⟩
  | cons item rest ih =>
    have hrest : ∀ segment, .comment segment ∈ rest → segment.selection ≠ place :=
      fun segment hmem ↦ hothers segment (List.mem_cons_of_mem _ hmem)
    cases item with
    | comment segment =>
      obtain ⟨hpending, hsame⟩ := comment_of_ne (hothers segment List.mem_cons_self) reading
      have hread := ih (h.comment segment) (hpending.trans hwaits) (hsame.trans hnone) hrest
      have hopenings := (h.toHolds.comment segment).2
      have hheader : (reading.comment segment).header = reading.header :=
        congrArg Openings.header hopenings
      rw [hopenings, hheader] at hread
      exact hread
    | statement segment =>
      have hmoved := h.withHeader (reading.header.next segment.text).1
      change ∃ target, (rest.foldl Reading.item (reading.statement segment)).tree.Receives
        reading.openings segments
        (reading.header.firstCode? (segment :: rest.filterMap (·.statement?))) target ∧
        annotationsAt (rest.foldl Reading.item (reading.statement segment)).annotations place = _
      rw [statement_eq, Header.firstCode?]
      split
      · obtain ⟨target, hreceives, hrecorded⟩ := ih hmoved hwaits hnone hrest
        exact ⟨target, hreceives.of_header, hrecorded⟩
      · obtain ⟨target, hreceives, hrecorded⟩ :=
          hmoved.receives_codeStatement hwaits hnone segment hrest
        exact ⟨target, hreceives.of_header, hrecorded⟩

/-! ## Where annotations come from -/

/-- All that waits and all that is recorded satisfies `P`. -/
structure Upholds (P : Directive → Selection → Prop) (reading : Reading) : Prop where
  pending {waiting : Directive × Selection} : waiting ∈ reading.pending → P waiting.1 waiting.2
  annotations {note : Annotation} : note ∈ reading.annotations →
    P note.directive note.selection

namespace Upholds

variable {P : Directive → Selection → Prop}

theorem settles (h : reading.Upholds P) {later : Reading} {drops : Bool}
    (hsettles : reading.Settles later drops) : later.Upholds P := by
  refine ⟨fun hmem ↦ ?_, fun {note} hmem ↦ ?_⟩
  · rw [hsettles.pending_eq] at hmem
    cases hmem
  · cases drops with
    | true =>
      rw [hsettles.drops_eq rfl] at hmem
      exact h.annotations hmem
    | false =>
      obtain ⟨node, -, hattached⟩ := hsettles.attaches rfl
      rw [hattached, attach, List.mem_append] at hmem
      rcases hmem with hold | hnew
      · exact h.annotations hold
      · obtain ⟨waiting, hwaiting, rfl⟩ := List.mem_map.1 hnew
        exact h.pending hwaiting

/-- A comment keeps the property if its directive has it. -/
theorem comment (h : reading.Upholds P) {segment : Segment}
    (hsegment : ∀ directive, directive? segment.text = some directive →
      P directive segment.selection) : (reading.comment segment).Upholds P := by
  cases hdirective : directive? segment.text with
  | none =>
    rw [comment_of_none hdirective]
    exact h
  | some directive =>
    have hwritten := hsegment directive hdirective
    rw [comment_of_directive hdirective]
    split
    · refine ⟨h.pending, fun hmem ↦ ?_⟩
      rcases List.mem_append.1 hmem with hold | hnew
      · exact h.annotations hold
      · cases List.mem_singleton.1 hnew
        exact hwritten
    · refine ⟨fun hmem ↦ ?_, h.annotations⟩
      rcases List.mem_append.1 hmem with hold | hnew
      · exact h.pending hold
      · cases List.mem_singleton.1 hnew
        exact hwritten

/-- A statement hands the waiting directives on and adds none. -/
theorem statement (h : reading.Upholds P) (htracks : reading.Tracks segments) (segment : Segment) :
    (reading.statement segment).Upholds P := by
  have hmoved := htracks.withHeader (reading.header.next segment.text).1
  have hupheld : ({ reading with header := (reading.header.next segment.text).1 } :
      Reading).Upholds P := ⟨h.pending, h.annotations⟩
  rw [statement_eq]
  split
  · exact hupheld
  · exact hupheld.settles (hmoved.settles_codeStatement segment)

/-- All directives have the property if those of the comments read have it. -/
theorem foldl_item (h : reading.Upholds P) (htracks : reading.Tracks segments)
    {items : List LineItem}
    (hcomments : ∀ segment, .comment segment ∈ items → ∀ directive,
      directive? segment.text = some directive → P directive segment.selection) :
    (items.foldl Reading.item reading).Upholds P := by
  induction items generalizing reading segments with
  | nil => exact h
  | cons item rest ih =>
    have hitem : (reading.item item).Upholds P := by
      cases item with
      | comment segment => exact h.comment (hcomments segment List.mem_cons_self)
      | statement segment => exact h.statement htracks segment
    exact ih hitem (htracks.foldl_item [item]).1
      fun segment hmem ↦ hcomments segment (List.mem_cons_of_mem _ hmem)

end Upholds

end Reading

/-! ## Annotations of a module -/

/-- Every annotation stands for a directive in a comment, at the place of the comment. -/
theorem exists_comment_of_mem_annotations (component text : String) {note : Annotation}
    (h : note ∈ (readModule component text).annotations) :
    ∃ segment ∈ commentsOf text.toList, directive? segment.text = some note.directive ∧
      note.selection = segment.selection := by
  have hstart : (Reading.start component text.toList).Upholds fun directive place ↦
      ∃ segment ∈ commentsOf text.toList, directive? segment.text = some directive ∧
        place = segment.selection := ⟨nofun, nofun⟩
  refine (hstart.foldl_item (Reading.tracks_start component text.toList) ?_).annotations h
  intro segment hsegment directive hdirective
  exact ⟨segment, List.mem_filterMap.2 ⟨_, hsegment, rfl⟩, hdirective, rfl⟩

section Split

variable (component : String) {text : String} {before after : List LineItem} {segment : Segment}
  (hsplit : lineItems text.toList = before ++ .comment segment :: after)
include hsplit

/-- When a comment is read, nothing waits and nothing is recorded from its place. -/
theorem exists_reading_of_split :
    ∃ reading : Reading,
      reading.Tracks (Openings.start.kept (before.filterMap (·.statement?))) ∧
      reading.openings = Openings.start.after (before.filterMap (·.statement?)) ∧
      reading.pendingAt segment.selection = [] ∧
      Reading.annotationsAt reading.annotations segment.selection = [] ∧
      readModule component text =
        ⟨(after.foldl Reading.item (reading.comment segment)).tree,
          (after.foldl Reading.item (reading.comment segment)).annotations⟩ := by
  have hstart := Reading.tracks_start component text.toList
  obtain ⟨htracks, hopenings⟩ := hstart.foldl_item before
  obtain ⟨hpending, hannotations⟩ :=
    hstart.annotationsAt_foldl_item rfl (selection_ne_of_split hsplit).1
  refine ⟨_, htracks, hopenings, hpending, hannotations, ?_⟩
  rw [readModule, hsplit, List.foldl_append]
  rfl

variable {directive : Directive} (hdirective : directive? segment.text = some directive)
include hdirective

/-- A directive about the module is recorded at once. -/
theorem annotationsAt_of_concernsModule (hmodule : directive.concernsModule = true) :
    Reading.annotationsAt (readModule component text).annotations segment.selection =
      [⟨directive, .module, segment.selection⟩] := by
  obtain ⟨reading, htracks, -, hpending, hannotations, hread⟩ :=
    exists_reading_of_split component hsplit
  have hcomment : reading.comment segment =
      { reading with
        annotations := reading.annotations ++ [⟨directive, .module, segment.selection⟩] } := by
    rw [Reading.comment_of_directive hdirective, if_pos hmodule]
  have hwaits : (reading.comment segment).pendingAt segment.selection = [] := by
    rw [hcomment]
    exact hpending
  obtain ⟨-, hsame⟩ := (htracks.comment segment).annotationsAt_foldl_item hwaits
    (selection_ne_of_split hsplit).2
  rw [hread, hsame, hcomment]
  dsimp only
  rw [Reading.annotationsAt_append, hannotations, List.nil_append]
  simp [Reading.annotationsAt]

/-- Any other directive is attached to what it is said to be attached to. -/
theorem exists_receives_of_split (hmodule : directive.concernsModule = false) :
    ∃ target, (readModule component text).tree.Receives
        (Openings.start.after (before.filterMap (·.statement?)))
        (Openings.start.kept (before.filterMap (·.statement?)))
        ((Openings.start.after (before.filterMap (·.statement?))).header.firstCode?
          (after.filterMap (·.statement?))) target ∧
      Reading.annotationsAt (readModule component text).annotations segment.selection =
        target.toList.map fun node ↦ ⟨directive, .node node, segment.selection⟩ := by
  obtain ⟨reading, htracks, hopenings, hpending, hannotations, hread⟩ :=
    exists_reading_of_split component hsplit
  have hcomment : reading.comment segment =
      { reading with pending := reading.pending ++ [(directive, segment.selection)] } := by
    rw [Reading.comment_of_directive hdirective, if_neg (Bool.eq_false_iff.1 hmodule)]
  have hwaits : (reading.comment segment).pendingAt segment.selection =
      [(directive, segment.selection)] := by
    rw [hcomment, Reading.pendingAt, List.filter_append]
    change reading.pendingAt segment.selection ++ _ = _
    rw [hpending]
    simp
  have hreceives := (htracks.comment segment).receives_foldl_item hwaits
    (by rw [hcomment]; exact hannotations) (selection_ne_of_split hsplit).2
  have hsame : (reading.comment segment).openings = reading.openings :=
    (htracks.toHolds.comment segment).2
  have hheader : (reading.comment segment).header = reading.openings.header :=
    congrArg Openings.header hsame
  rw [hsame, hheader, hopenings] at hreceives
  rw [hread]
  exact hreceives

end Split

/-- What an annotation is attached to is a node of the tree. -/
theorem lt_size_of_mem_annotations {component text : String} {note : Annotation}
    (h : note ∈ (readModule component text).annotations) {node : Nat}
    (htarget : note.target = .node node) : node < (readModule component text).tree.size := by
  obtain ⟨segment, hsegment, hdirective, hplace⟩ := exists_comment_of_mem_annotations component text h
  obtain ⟨item, hitem, hcomment⟩ := List.mem_filterMap.1 hsegment
  rw [LineItem.comment?_eq_some_iff.1 hcomment] at hitem
  obtain ⟨before, after, hsplit⟩ := List.append_of_mem hitem
  have hrecorded : note ∈ Reading.annotationsAt (readModule component text).annotations
      segment.selection := List.mem_filter.2 ⟨h, by simp [hplace]⟩
  cases hmodule : note.directive.concernsModule with
  | true =>
    rw [annotationsAt_of_concernsModule component hsplit hdirective hmodule] at hrecorded
    rw [List.mem_singleton.1 hrecorded] at htarget
    cases htarget
  | false =>
    obtain ⟨target, hreceives, hrest⟩ :=
      exists_receives_of_split component hsplit hdirective hmodule
    rw [hrest] at hrecorded
    obtain ⟨known, hknown, hnote⟩ := List.mem_map.1 hrecorded
    rw [← hnote] at htarget
    cases htarget
    rw [Option.mem_toList.1 hknown] at hreceives
    exact hreceives.lt_size

/-- Every annotation comes from a comment, and every directive in a comment is recorded once: those
about the module with the module as their target, wherever they stand, and the others with the node
that the next statement is read into. These are dropped exactly where a member ends next or no
statement follows. -/
theorem annotations_reach_the_next_statement (component text : String) :
    let parsed := readModule component text
    (∀ note ∈ parsed.annotations, ∃ segment ∈ commentsOf text.toList,
      directive? segment.text = some note.directive ∧
        note.selection = segment.selection) ∧
    ∀ before segment after directive,
      lineItems text.toList = before ++ .comment segment :: after →
      directive? segment.text = some directive →
      let recorded := parsed.annotations.filter (·.selection = segment.selection)
      let openings := Openings.start.after (before.filterMap (·.statement?))
      let done := Openings.start.kept (before.filterMap (·.statement?))
      let next := openings.header.firstCode? (after.filterMap (·.statement?))
      (directive.concernsModule = true →
        recorded = [⟨directive, .module, segment.selection⟩]) ∧
      (directive.concernsModule = false →
        (∃ target, parsed.tree.Receives openings done next target ∧
          recorded = target.toList.map fun node ↦ ⟨directive, .node node, segment.selection⟩) ∧
        (recorded = [] ↔ next = none ∨
          ∃ statement, next = some statement ∧ openings.endsMember statement.text = true)) := by
  intro parsed
  refine ⟨fun note h ↦ exists_comment_of_mem_annotations component text h, ?_⟩
  intro before segment after directive hsplit hdirective recorded openings done next
  refine ⟨annotationsAt_of_concernsModule component hsplit hdirective, fun hmodule ↦ ?_⟩
  obtain ⟨target, hreceives, hrecorded⟩ :=
    exists_receives_of_split component hsplit hdirective hmodule
  refine ⟨⟨target, hreceives, hrecorded⟩, ?_⟩
  rw [← hreceives.eq_none_iff]
  change Reading.annotationsAt parsed.annotations segment.selection = [] ↔ _
  rw [hrecorded, List.map_eq_nil_iff, Option.toList_eq_nil_iff]

/-- The first directive is read among the lines of a block, the second before a member, the third at the
end of the member, and the last concerns the module. -/
example : ((readModule "M" ("Type T\nRem @Ignore A\nx As Long\nEnd Type\nRem @Ignore B\nSub S()\n" ++
    "Rem @Ignore C\nEnd Sub\nRem @Folder F\n")).annotations.map fun note ↦
      (note.directive, note.target)) =
    [(.ignore ["A"], .node 4), (.ignore ["B"], .node 6), (.folder "F", .module)] := by
  decide +kernel

end VbaLint
