import VbaLint.Proofs.Module.Containers

/-!
# Ranges at the end of a text

What is still open at the end of a text is not closed. So the body ends with the header of the member that
is open last, and an element ends with the first line of a block that is open in it. Of everything else the
sections, members and elements take in the whole.
-/

namespace VbaLint

open Source Statement Text Tree

namespace Statement

/-- Of the nodes that are no members just those of statements that open blocks span lines. -/
theorem Shape.spansLines_statementKind {text : List Char}
    (h : ∀ signature, shapeOf text ≠ .procedureStart signature) :
    (SyntaxTree.statementKind (shapeOf text)).spansLines = (shapeOf text).opensBlock := by
  cases hshape : shapeOf text with
  | procedureStart signature => exact absurd hshape (h signature)
  | option kind =>
    rcases optionKind?_cases (optionKind?_of_shapeOf hshape) with rfl | rfl | rfl | rfl <;> rfl
  | blockStart kind name =>
    rcases blockStart?_cases (blockStart?_of_shapeOf hshape) with rfl | rfl <;> rfl
  | _ => rfl

end Statement

namespace Source

/-- Statements have ranges, since lines are counted from one. -/
theorem isPlaced_of_mem_statementsOf {source : List Char} {statement : Segment}
    (h : statement ∈ statementsOf source) : statement.selection.IsPlaced := by
  rw [statementsOf_eq] at h
  obtain ⟨line, hline, hmem⟩ := List.mem_flatMap.1 h
  have hfirst : firstLine none 1 ≤ 1 := Nat.le_refl 1
  have hone : 1 ≤ line.startLine := (startLines_joinLines hfirst (physicalLines source)).2 line hline
  rw [Selection.IsPlaced, (LogicalLine.lines_of_mem_statements hmem).1]
  omega

end Source

namespace Reading

variable {reading : Reading} {segments : List Segment} {segment : Segment} {place : Nat → Selection}

/-! ## Steps of reading -/

theorem procedure_closeProcedure (reading : Reading) : reading.closeProcedure.procedure = none := by
  unfold Reading.closeProcedure
  split
  · assumption
  · rfl

namespace Ranged

/-- The ranges agree when the open member is left. -/
theorem closeProcedure (h : Ranged reading.tree reading.procedure none place) :
    Ranged reading.closeProcedure.tree none none place := by
  unfold Reading.closeProcedure
  split
  · next hclosed =>
    rw [hclosed] at h
    exact h
  · next hopened =>
    rw [hopened] at h
    exact h.close

/-- The ranges agree behind the line that ends a member. -/
theorem endProcedure {opened : OpenProcedure} (h : Ranged reading.tree (some opened) none place)
    (hopened : reading.procedure = some opened) (hplaced : segment.selection.IsPlaced) :
    Ranged (reading.endProcedure opened segment).tree none none place := by
  have hwidened := h.widenMember hplaced
  rw [← hopened] at hwidened
  exact closeProcedure hwidened

/-- The ranges agree behind a line of an open block. -/
theorem blockLine {block : Nat} (h : Ranged reading.tree reading.procedure (some block) place)
    (hplaced : segment.selection.IsPlaced) (hblock : reading.typeBlock = some block) :
    Ranged (reading.blockLine block segment).tree (reading.blockLine block segment).procedure
      (reading.blockLine block segment).typeBlock place := by
  have hline := h.widenTypeBlock hplaced
  obtain ⟨holder, hholder, hin⟩ := hline.block_holder rfl
  unfold Reading.blockLine
  dsimp only [Reading.attach]
  split
  · rw [hholder]
    rcases hin with helement | ⟨opened, hopened, rfl⟩
    · exact hline.endBlock_of_element hholder helement
    · rw [hopened] at hline ⊢
      exact hline.endBlock_of_member hholder
  · rw [hblock]
    exact hline

/-- The ranges agree behind the header of a member. -/
theorem beginProcedure (h : Ranged reading.closeProcedure.tree none none place) {signature : Signature}
    (hshape : shapeOf segment.text = .procedureStart signature) (hplaced : segment.selection.IsPlaced) :
    Ranged (reading.beginProcedure signature segment).tree
      (reading.beginProcedure signature segment).procedure none
      (placing reading.closeProcedure.tree place segment.selection) := by
  have hlt := SyntaxTree.lt_size_of_kind? h.stands.body_kind
  have hlaid := laysOut_of_addsParts hlt (SyntaxTree.addsParts_member hlt hshape)
  have hnode : reading.closeProcedure.tree.size <
      (reading.closeProcedure.tree.addMember body signature segment).size := by
    have htakes := SyntaxTree.takesParts_statement hlt segment
    rw [hshape] at htakes
    exact SyntaxTree.lt_size_of_kind?
      (laysOut_of_addsParts hlt (SyntaxTree.addsParts_addMember htakes)).kind?_self
  refine h.layMember hlaid (isProcedure_of_signature? (signature?_of_shapeOf hshape))
    (SyntaxTree.kind?_addChild_self hnode) ?_ hplaced
  rw [SyntaxTree.parent?_addChild hnode, if_pos rfl]

/-- The room that is made for a statement lies in the block of the open member, else in a new element. -/
theorem statementParent (h : Ranged reading.tree reading.procedure none place) {selection : Selection}
    (hplaced : selection.IsPlaced) :
    ∃ place', (∀ id < reading.tree.size, place' id = place id) ∧
      Ranged (reading.statementParent selection).1 reading.procedure none place' ∧
      HasRoom (reading.statementParent selection).1 reading.procedure selection
        (reading.statementParent selection).2 := by
  unfold Reading.statementParent
  split
  · next opened hopened =>
    rw [hopened] at h
    have hwidened := (h.widenBlock hplaced).widenMember hplaced
    refine ⟨place, fun _ _ ↦ rfl, by rwa [hopened], .block hopened ?_⟩
    have hlt := SyntaxTree.lt_size_of_parent? (h.opened_parent rfl).2
    rw [selectionOf_widen_self (by rwa [SyntaxTree.size_widen])]
    exact Selection.within_widen_right _ _
  · next hclosed =>
    rw [hclosed] at h
    have hlt := SyntaxTree.lt_size_of_kind? h.stands.declarations_kind
    have hlaid : LaysOut reading.tree declarations .moduleDeclarationsElement selection
        (reading.tree.addChild declarations .moduleDeclarationsElement selection "") :=
      laysOut_of_addsParts hlt .refl
    have hne : declarations ≠ reading.tree.size := hlt.ne
    refine ⟨_, fun id hid ↦ placing_of_lt hid place selection, by
      rw [hclosed]
      exact h.layElement hlaid hplaced, .element ?_ ?_ fun id hid ↦ ?_⟩
    · rw [SyntaxTree.parent?_widen, hlaid.parent?_self]
    · rw [selectionOf_widen_of_ne hne, hlaid.selectionOf_self]
    · rw [SyntaxTree.parent?_widen, SyntaxTree.parent?_addChild hlt] at hid
      split at hid
      · exact hne (Option.some.inj hid)
      · exact absurd (SyntaxTree.parent_lt hid) (Nat.not_lt.2 (SyntaxTree.lt_size_of_parent? hid).le)

end Ranged

/-! ## Runs of reading -/

/-- The range of each node of a statement is that of the statement. -/
def PlacesAll (place : Nat → Selection) (tree : SyntaxTree) (segments : List Segment) : Prop :=
  List.Forall₂ (fun id segment ↦ place id = segment.selection) tree.statementNodes segments

/-- A further statement has its place if its node has it and the others keep theirs. -/
theorem PlacesAll.snoc {tree grown : SyntaxTree} {place' : Nat → Selection} {node : Nat}
    (h : PlacesAll place tree segments) (hold : ∀ id < tree.size, place' id = place id)
    (hnodes : grown.statementNodes = tree.statementNodes ++ [node])
    (hnode : place' node = segment.selection) : PlacesAll place' grown (segments ++ [segment]) := by
  have hin : ∀ id ∈ tree.statementNodes, id < tree.size := fun id hid ↦
    SyntaxTree.lt_size_of_isStatement (SyntaxTree.mem_statementNodes_iff_isStatement.1 hid)
  rw [PlacesAll, hnodes]
  refine List.rel_append (List.Forall₂.imp ?_ ((List.forall₂_and_left _ _).2 ⟨hin, h⟩))
    (.cons hnode .nil)
  rintro id known ⟨hlt, hplace⟩
  rw [hold id hlt, hplace]

/-- The ranges agree as far as the text is read. -/
structure Measured (reading : Reading) (segments : List Segment) : Prop
    extends reading.Tracks segments where
  ranged : ∃ place, Ranged reading.tree reading.procedure reading.typeBlock place ∧
    PlacesAll place reading.tree segments

theorem parent?_start {component : String} {source : List Char} {id parent : Nat}
    (h : (Reading.start component source).tree.parent? id = some parent) : parent = 0 := by
  have hroot : (SyntaxTree.ofRoot component (moduleSelection source)).parent? id ≠ some parent := by
    intro hid
    have hlt : id < 1 := SyntaxTree.lt_size_of_parent? hid
    exact absurd ((SyntaxTree.parent_lt hid).trans_le (Nat.le_of_lt_succ hlt)) (Nat.not_lt_zero _)
  rw [Reading.start, SyntaxTree.parent?_addChild Nat.zero_lt_two,
    SyntaxTree.parent?_addChild Nat.zero_lt_one] at h
  split at h
  · exact (Option.some.inj h).symm
  · split at h
    · exact (Option.some.inj h).symm
    · exact absurd h hroot

theorem ranged_start (component : String) (source : List Char) :
    Ranged (Reading.start component source).tree none none fun _ ↦ ⟨1, 1, 1, 1⟩ := by
  have hstands := (holds_start component source).stands
  have hbelow {id parent : Nat} {kind : NodeKind}
      (hid : (Reading.start component source).tree.parent? id = some parent)
      (hkind : (Reading.start component source).tree.kind? parent = some kind) : kind = .module := by
    rw [parent?_start hid] at hkind
    exact (Option.some.inj hkind).symm
  have hplain {id : Nat} : (Reading.start component source).tree.isStatement id ≠ true := by
    intro hid
    obtain ⟨parent, kind, hparent, hkind, hholds⟩ := SyntaxTree.isStatement_iff.1 hid
    rw [hbelow hparent hkind] at hholds
    cases hholds
  have hsection {id : Nat} : (Reading.start component source).tree.parent? id ≠ some declarations :=
    fun hid ↦ by cases hbelow hid hstands.declarations_kind
  have hmember {id : Nat} : (Reading.start component source).tree.parent? id ≠ some body :=
    fun hid ↦ by cases hbelow hid hstands.body_kind
  have hshown : shown (Reading.start component source).tree none = ∅ := by
    refine Set.eq_empty_of_forall_notMem fun id hid ↦ ?_
    rcases hid with hid | ⟨hid, -⟩
    · exact hsection hid
    · obtain ⟨parent, hparent, hkind⟩ := SyntaxTree.holderKind?_eq_some_iff.1 hid
      cases hbelow hparent hkind
  exact
    { stands := hstands
      root_kind := rfl
      declarations_parent := rfl
      body_parent := rfl
      opened_parent := nofun
      opened_last := nofun
      element_kind := fun hid ↦ absurd hid hsection
      element_single := fun hid ↦ absurd hid hsection
      block_holder := nofun
      place_isPlaced := fun _ ↦ Nat.one_ne_zero
      isPlaced := fun hid ↦ (hid.elim hplain hsection).elim
      inside := fun hid ↦ absurd hid hplain
      member_covers := fun hid ↦ absurd hid hmember
      body_hull := .inl ⟨Set.eq_empty_of_forall_notMem fun id ↦ hmember, rfl⟩
      declarations_hull := .inl ⟨hshown, rfl⟩
      element_range := fun hid ↦ absurd hid hsection }

/-- The ranges agree before anything is read. -/
theorem measured_start (component : String) (source : List Char) :
    (Reading.start component source).Measured [] where
  toTracks := tracks_start component source
  ranged := by
    refine ⟨_, ranged_start component source, ?_⟩
    rw [PlacesAll, List.forall₂_nil_right_iff.1 (holds_start component source).renders]
    exact .nil

namespace Measured

variable (h : reading.Measured segments)
include h

theorem endProcedure {opened : OpenProcedure} (hclosed : reading.typeBlock = none)
    (hopened : reading.procedure = some opened) (hplaced : segment.selection.IsPlaced) :
    ∃ place, Ranged (reading.endProcedure opened segment).tree
        (reading.endProcedure opened segment).procedure (reading.endProcedure opened segment).typeBlock
        place ∧
      PlacesAll place (reading.endProcedure opened segment).tree segments := by
  obtain ⟨place, hranged, hplaces⟩ := h.ranged
  rw [hclosed, hopened] at hranged
  have hleft : (reading.endProcedure opened segment).procedure = none := procedure_closeProcedure _
  have hended : (reading.endProcedure opened segment).typeBlock = none :=
    (typeBlock_closeProcedure _).trans hclosed
  refine ⟨place, ?_, ?_⟩
  · rw [hleft, hended]
    exact hranged.endProcedure hopened hplaced
  · rw [PlacesAll, Reading.endProcedure, statementNodes_closeProcedure, SyntaxTree.statementNodes_widen]
    exact hplaces

theorem beginProcedure {signature : Signature} (hclosed : reading.typeBlock = none)
    (hshape : shapeOf segment.text = .procedureStart signature) (hplaced : segment.selection.IsPlaced) :
    ∃ place, Ranged (reading.beginProcedure signature segment).tree
        (reading.beginProcedure signature segment).procedure
        (reading.beginProcedure signature segment).typeBlock place ∧
      PlacesAll place (reading.beginProcedure signature segment).tree (segments ++ [segment]) := by
  obtain ⟨place, hranged, hplaces⟩ := h.ranged
  rw [hclosed] at hranged
  have hbegun : (reading.beginProcedure signature segment).typeBlock = none :=
    (typeBlock_closeProcedure reading).trans hclosed
  refine ⟨placing reading.closeProcedure.tree place segment.selection, ?_, ?_⟩
  · rw [hbegun]
    exact hranged.closeProcedure.beginProcedure hshape hplaced
  · rw [PlacesAll, ← statementNodes_closeProcedure] at hplaces
    refine PlacesAll.snoc hplaces (fun id hid ↦ placing_of_lt hid place segment.selection) ?_
      (placing_self ..)
    rw [h.statementNodes_beginProcedure hshape, statementNodes_closeProcedure]

theorem plainStatement (hclosed : reading.typeBlock = none)
    (hshape : ∀ signature, shapeOf segment.text ≠ .procedureStart signature)
    (hplaced : segment.selection.IsPlaced) :
    ∃ place, Ranged (reading.plainStatement (shapeOf segment.text) segment).tree reading.procedure
        (reading.plainStatement (shapeOf segment.text) segment).typeBlock place ∧
      PlacesAll place (reading.plainStatement (shapeOf segment.text) segment).tree
        (segments ++ [segment]) := by
  obtain ⟨place, hranged, hplaces⟩ := h.ranged
  rw [hclosed] at hranged
  obtain ⟨place', hold, hmade, hroom⟩ := hranged.statementParent hplaced
  have hlt := SyntaxTree.lt_size_of_kind? (hroom.holdsStatements hmade.toFramed).choose_spec.1
  have hlaid := laysOut_of_addsParts hlt (SyntaxTree.addsParts_statement hlt hshape)
  have hgrows := growsTo_statementParent h.toHolds segment.selection
  have hnodes := h.statementNodes_plainStatement hshape
  have hopens := typeBlock_plainStatement reading (shapeOf segment.text) segment
  rw [hclosed, ← Shape.spansLines_statementKind hshape] at hopens
  refine ⟨_, hmade.layStatement hroom hlaid hplaced hopens, ?_⟩
  refine hplaces.snoc (fun id hid ↦ ?_) hnodes (placing_self ..)
  rw [placing_of_lt (hgrows.keeps.lt_size hid), hold id hid]

/-- The ranges agree behind any statement, if it has a place. -/
theorem codeStatement (hplaced : segment.selection.IsPlaced) :
    (reading.codeStatement segment).Measured
      (if (reading.openings.nextCode segment.text).2 then segments ++ [segment] else segments) := by
  refine ⟨h.toTracks.codeStatement segment, ?_⟩
  have hreads := readsAs_codeStatement reading segment
  generalize reading.codeStatement segment = later,
    (reading.openings.nextCode segment.text).2 = makes,
    reading.openings.endsMember segment.text = drops at hreads ⊢
  cases hreads with
  | blockLine hblock =>
    obtain ⟨place, hranged, hplaces⟩ := h.ranged
    rw [hblock] at hranged
    refine ⟨place, hranged.blockLine hplaced hblock, ?_⟩
    rw [PlacesAll, statementNodes_blockLine]
    exact hplaces
  | endProcedure hclosed hopened => exact h.endProcedure hclosed hopened hplaced
  | beginProcedure hclosed hshape => exact h.beginProcedure hclosed hshape hplaced
  | plainStatement hclosed hshape => exact h.plainStatement hclosed hshape hplaced

end Measured

/-- The ranges agree whatever is read, if the statements have places. -/
theorem follows_measured : Follows (·.selection.IsPlaced) Measured where
  holds h := h.toHolds
  outside h header pending annotations :=
    ⟨follows_tracks.outside h.toTracks header pending annotations, h.ranged⟩
  code h _ hplaced := h.codeStatement hplaced

/-! ## Modules -/

/-- What is open at the end of a text: the last member, and the node of the last statement if it opens a
block. -/
structure LeavesOpen (text : String) (tree : SyntaxTree) (procedure : Option OpenProcedure)
    (typeBlock : Option Nat) : Prop where
  procedure_eq : procedure.isSome = (Openings.start.after (statementsOf text.toList)).procedure
  typeBlock_eq : typeBlock.isSome = (Openings.start.after (statementsOf text.toList)).block
  procedure_last {opened : OpenProcedure} : procedure = some opened →
    IsGreatest (members tree) opened.node
  typeBlock_last {block : Nat} : typeBlock = some block → tree.statementNodes.getLast? = some block

theorem exists_ranged_readModule (component text : String) :
    ∃ procedure typeBlock place,
      LeavesOpen text (readModule component text).tree procedure typeBlock ∧
      PlacesAll place (readModule component text).tree (keptStatements text.toList) ∧
      (readModule component text).tree.RendersAll (keptStatements text.toList) ∧
      Ranged (readModule component text).tree procedure typeBlock place := by
  have hplaced : ∀ segment ∈ statementsOf text.toList, segment.selection.IsPlaced :=
    fun _ ↦ isPlaced_of_mem_statementsOf
  have hfinal := follows_measured.foldl_item (measured_start component text.toList)
    (lineItems text.toList) hplaced
  obtain ⟨place, hranged, hplaces⟩ := hfinal.ranged
  have hopenings := (holds_start component text.toList).openings_foldl_item (lineItems text.toList)
  refine ⟨_, _, place, ?_, hplaces, hfinal.renders, hranged⟩
  exact
    { procedure_eq := congrArg Openings.procedure hopenings
      typeBlock_eq := congrArg Openings.block hopenings
      procedure_last := fun hopened ↦
        ⟨(hranged.opened_parent hopened).2, hranged.opened_last hopened⟩
      typeBlock_last := fun hblock ↦ (hfinal.block_last hblock).1 }

/-- The range of a statement that spans no further lines is its place. -/
theorem selectionOf_eq_place {tree : SyntaxTree} (hrenders : tree.RendersAll segments)
    (hplaces : PlacesAll place tree segments) {id : Nat} (hid : tree.isStatement id = true)
    (hplain : (tree.kind? id).any (·.spansLines) = false) : selectionOf tree id = place id := by
  have hboth := List.Forall₂.mp (fun id segment hrender hplace ↦ And.intro hrender hplace) hrenders hplaces
  obtain ⟨segment, -, ⟨node, hnode, -, -, hrange⟩, hplace⟩ :=
    exists_of_mem_left hboth (SyntaxTree.mem_statementNodes_iff_isStatement.2 hid)
  rw [SyntaxTree.kind?, hnode, Option.map_some, Option.any_some] at hplain
  rw [selectionOf, hnode, Option.map_some, Option.getD_some, hplace]
  exact hrange.resolve_left (by rw [hplain]; exact Bool.false_ne_true)

end Reading

open Reading in
/-- The ranges of the sections, members and elements of a module, where `place` tells the places of its
statements. The body is the hull of its members, but of a member left open it has just the header. A member
takes in the places of all statements in its block, which are their ranges unless they open blocks
themselves. The declarations are the hull of their elements and of the blocks in members, except for one
left open there. An element has the range of its statement, but of a block left open just the first line. -/
theorem container_ranges (component text : String) :
    let tree := (readModule component text).tree
    ∃ procedure typeBlock place, LeavesOpen text tree procedure typeBlock ∧
      PlacesAll place tree (keptStatements text.toList) ∧
      (selectionOf tree body).IsHull (members tree) (takenIn tree procedure place) ∧
      (∀ member block id, tree.parent? member = some body → tree.parent? block = some member →
        tree.kind? block = some .block → tree.parent? id = some block →
          (place id).Within (selectionOf tree member) ∧
            ((tree.kind? id).any (·.spansLines) = false → selectionOf tree id = place id)) ∧
      (selectionOf tree declarations).IsHull (shown tree typeBlock) (selectionOf tree) ∧
      ∀ element id, tree.parent? element = some declarations → tree.parent? id = some element →
        selectionOf tree element = if typeBlock = some id then place id else selectionOf tree id := by
  intro tree
  obtain ⟨procedure, typeBlock, place, hopen, hplaces, hrenders, hranged⟩ :=
    exists_ranged_readModule component text
  refine ⟨procedure, typeBlock, place, hopen, hplaces, hranged.body_hull, ?_, hranged.declarations_hull,
    fun element id ↦ hranged.element_range⟩
  intro member block id hmember hblock hkind hid
  refine ⟨hranged.member_covers hmember hblock hkind hid, selectionOf_eq_place hrenders hplaces ?_⟩
  exact SyntaxTree.isStatement_iff.2 ⟨block, .block, hid, hkind, rfl⟩

open Reading in
/-- If a text leaves nothing open and no block stands in a member, the sections are the hulls of their
members and elements, which take in what they hold. -/
theorem container_ranges_of_closed (component text : String)
    (hprocedure : (Openings.start.after (statementsOf text.toList)).procedure = false)
    (hblock : (Openings.start.after (statementsOf text.toList)).block = false)
    (hplain : ∀ id, (readModule component text).tree.holderKind? id = some .block →
      ((readModule component text).tree.kind? id).any (·.spansLines) = false) :
    let tree := (readModule component text).tree
    (selectionOf tree body).IsHull (members tree) (selectionOf tree) ∧
      (∀ member block id, tree.parent? member = some body → tree.parent? block = some member →
        tree.kind? block = some .block → tree.parent? id = some block →
          (selectionOf tree id).Within (selectionOf tree member)) ∧
      (selectionOf tree declarations).IsHull {id | tree.parent? id = some declarations}
        (selectionOf tree) ∧
      ∀ element id, tree.parent? element = some declarations → tree.parent? id = some element →
        selectionOf tree element = selectionOf tree id := by
  intro tree
  obtain ⟨procedure, typeBlock, place, hopen, hplaces, hrenders, hranged⟩ :=
    exists_ranged_readModule component text
  obtain rfl : procedure = none := Option.not_isSome_iff_eq_none.1 (by
    rw [hopen.procedure_eq, hprocedure]
    exact Bool.false_ne_true)
  obtain rfl : typeBlock = none := Option.not_isSome_iff_eq_none.1 (by
    rw [hopen.typeBlock_eq, hblock]
    exact Bool.false_ne_true)
  have hshown : shown tree none = {id | tree.parent? id = some declarations} := by
    ext id
    refine or_iff_left fun hid ↦ ?_
    rw [hplain id hid.1] at hid
    exact Bool.false_ne_true hid.2.1
  refine ⟨hranged.body_hull.congr fun id _ ↦ (takenIn_none tree place id).symm, ?_, ?_, ?_⟩
  · intro member block id hmember hblock hkind hid
    have hin : tree.isStatement id = true := SyntaxTree.isStatement_iff.2 ⟨block, .block, hid, hkind, rfl⟩
    rw [selectionOf_eq_place hrenders hplaces hin
      (hplain id (SyntaxTree.holderKind?_of_parent hid hkind))]
    exact hranged.member_covers hmember hblock hkind hid
  · rw [← hshown]
    exact hranged.declarations_hull
  · intro element id helement hid
    rw [hranged.element_range helement hid, if_neg nofun]

open Reading in
/-- A member that is not ended reaches beyond the body, and a block that is not ended beyond its element. A
block in a member gives the declarations a range even if they have no elements. -/
theorem ranges_of_open_nodes :
    (let tree := (readModule "M" "Sub Foo()\n    x = 1\n").tree;
      tree.children body = [3] ∧ selectionOf tree 3 = ⟨1, 1, 2, 9⟩ ∧
        selectionOf tree body = ⟨1, 1, 1, 9⟩) ∧
      (let tree := (readModule "M" "Type T\n    x As Long\n").tree;
        tree.children declarations = [3] ∧ tree.children 3 = [4] ∧ selectionOf tree 4 = ⟨1, 1, 2, 13⟩ ∧
          selectionOf tree 3 = ⟨1, 1, 1, 6⟩) ∧
      let tree := (readModule "M" "Sub Foo()\nType T\nEnd Type\nEnd Sub\n").tree;
      tree.children declarations = [] ∧ selectionOf tree declarations = ⟨2, 1, 3, 8⟩ := by
  decide +kernel

end VbaLint
