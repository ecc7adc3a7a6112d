import VbaLint.Proofs.ListLemmas
import VbaLint.Proofs.Module.Openings

/-!
# Where statements stand

The node of a statement is put below the body if the statement is the header of a member, else below the
block of the open member, and else below an element of the declarations. So what is open when a
statement is read tells the section that its node is in.
-/

namespace VbaLint

open Source Statement Text Tree

/-! ## Places of statements -/

namespace Openings

/-- A statement makes a node outside of the file header and of blocks, unless it ends a member. -/
theorem makes_next (openings : Openings) (statement : List Char) :
    (openings.next statement).2 =
      (!(openings.header.next statement).2 && !openings.block &&
        !openings.endsMember statement) := by
  rcases hnext : openings.header.next statement with ⟨header, inHeader⟩
  simp only [next, hnext]
  cases inHeader with
  | true => rfl
  | false => exact makes_nextCode { openings with header } statement

/-- The kind of the node below which the node of a statement is put. -/
def holder (openings : Openings) (statement : List Char) : NodeKind :=
  match shapeOf statement with
  | .procedureStart _ => .moduleBody
  | _ => if openings.procedure then .block else .moduleDeclarationsElement

/-- A statement that is no header stands in the block of the open member, or in an element of the
declarations. -/
theorem holder_of_plain (openings : Openings) {statement : List Char}
    (h : ∀ signature, shapeOf statement ≠ .procedureStart signature) :
    openings.holder statement =
      if openings.procedure then .block else .moduleDeclarationsElement := by
  unfold holder
  split
  · next signature hshape => exact absurd hshape (h signature)
  · rfl

/-- Those of some statements that make nodes, with the kinds of the nodes that they are put below. -/
def placed : Openings → List Segment → List (Segment × NodeKind)
  | _, [] => []
  | openings, segment :: rest =>
    let later := (openings.next segment.text).1.placed rest
    if (openings.next segment.text).2 then (segment, openings.holder segment.text) :: later
    else later

theorem map_fst_placed (openings : Openings) (segments : List Segment) :
    (openings.placed segments).map (·.1) = openings.kept segments := by
  induction segments generalizing openings with
  | nil => rfl
  | cons segment rest ih =>
    rw [placed, kept, ← ih]
    split <;> rfl

/-- A statement is placed by what is open behind the statements before it. -/
theorem mem_placed_iff {openings : Openings} {segments : List Segment} {segment : Segment}
    {kind : NodeKind} : (segment, kind) ∈ openings.placed segments ↔
      ∃ before behind, segments = before ++ segment :: behind ∧
        ((openings.after before).next segment.text).2 = true ∧
        (openings.after before).holder segment.text = kind := by
  induction segments generalizing openings with
  | nil => simp [placed]
  | cons first rest ih =>
    have hcons : (segment, kind) ∈ openings.placed (first :: rest) ↔
        (segment = first ∧ (openings.next segment.text).2 = true ∧
          openings.holder segment.text = kind) ∨
          (segment, kind) ∈ (openings.next first.text).1.placed rest := by
      rw [placed]
      split
      · next hkept =>
        rw [List.mem_cons, Prod.mk.injEq]
        refine or_congr_left ⟨?_, ?_⟩
        · rintro ⟨rfl, rfl⟩
          exact ⟨rfl, hkept, rfl⟩
        · rintro ⟨rfl, -, rfl⟩
          exact ⟨rfl, rfl⟩
      · next hdropped =>
        refine ⟨.inr, fun h ↦ h.resolve_left ?_⟩
        rintro ⟨rfl, hkept, -⟩
        exact hdropped hkept
    rw [hcons, ih]
    constructor
    · rintro (⟨rfl, hkept, hholder⟩ | ⟨before, behind, rfl, hkept, hholder⟩)
      · exact ⟨[], rest, rfl, hkept, hholder⟩
      · exact ⟨first :: before, behind, rfl, hkept, hholder⟩
    · rintro ⟨before, behind, heq, hkept, hholder⟩
      cases before with
      | nil =>
        cases heq
        exact .inl ⟨rfl, hkept, hholder⟩
      | cons known before =>
        cases heq
        exact .inr ⟨before, behind, rfl, hkept, hholder⟩

end Openings

/-! ## Holders of nodes -/

namespace Tree.SyntaxTree

variable {tree grown : SyntaxTree} {id parent : Nat}

def holderKind? (tree : SyntaxTree) (id : Nat) : Option NodeKind :=
  (tree.parent? id).bind tree.kind?

theorem holderKind?_eq_some_iff {kind : NodeKind} : tree.holderKind? id = some kind ↔
    ∃ holder, tree.parent? id = some holder ∧ tree.kind? holder = some kind :=
  Option.bind_eq_some_iff

/-- The kinds of the nodes above the nodes that stand for statements. -/
def holders (tree : SyntaxTree) : List (Option NodeKind) :=
  tree.statementNodes.map tree.holderKind?

theorem holderKind?_widen (widened : Nat) (selection : Selection) (id : Nat) :
    (tree.widen widened selection).holderKind? id = tree.holderKind? id := by
  have hkind : (tree.widen widened selection).kind? = tree.kind? :=
    funext fun other ↦ kind?_widen widened selection other
  rw [holderKind?, holderKind?, parent?_widen, hkind]

@[simp]
theorem holders_widen (widened : Nat) (selection : Selection) :
    (tree.widen widened selection).holders = tree.holders := by
  rw [holders, holders, statementNodes_widen]
  exact List.map_congr_left fun id _ ↦ holderKind?_widen widened selection id

theorem Keeps.holderKind?_eq {takes : Nat → Prop} (h : Keeps takes tree grown)
    (hid : id < tree.size) : grown.holderKind? id = tree.holderKind? id := by
  rw [holderKind?, holderKind?, h.parent?_eq hid]
  cases hparent : tree.parent? id with
  | none => rfl
  | some up =>
    rw [Option.bind_some, Option.bind_some, h.kind?_eq (Nat.lt_trans (parent_lt hparent) hid)]

theorem GrowsTo.map_holderKind? (h : tree.GrowsTo grown) :
    tree.statementNodes.map grown.holderKind? = tree.holders := by
  apply List.map_congr_left
  intro id hid
  exact h.keeps.holderKind?_eq
    (lt_size_of_isStatement (mem_statementNodes_iff_isStatement.1 hid))

/-- Where a statement is laid out, the node that it is put below holds its node. -/
theorem holders_laidOut {above : NodeKind} (habove : tree.kind? parent = some above)
    (hholds : above.holdsStatements = true) {kind : NodeKind} {selection : Selection} {text : String}
    (hparts : AddsParts tree.size (tree.addChild parent kind selection text) grown) :
    grown.holders = tree.holders ++ [some above] := by
  have hlt := lt_size_of_kind? habove
  have hgrows := (GrowsTo.refl tree).addStatement habove hholds hparts
  have hparent : grown.parent? tree.size = some parent := by
    rw [parent?_eq_bare?, hparts.bare?_eq (by simp), bare?_addChild_self hlt]
    rfl
  have hnew : grown.holderKind? tree.size = some above := by
    rw [holderKind?, hparent, Option.bind_some, hgrows.keeps.kind?_eq hlt, habove]
  rw [holders, statementNodes_laidOut habove hholds hparts, List.map_append, List.map_singleton, hnew,
    hgrows.map_holderKind?]

end Tree.SyntaxTree

/-! ## Reading -/

namespace Reading

variable {reading : Reading} {segments : List Segment}

theorem holders_closeProcedure (reading : Reading) :
    reading.closeProcedure.tree.holders = reading.tree.holders := by
  unfold Reading.closeProcedure
  split
  · rfl
  · exact SyntaxTree.holders_widen _ _

theorem holders_endProcedure (reading : Reading) (opened : OpenProcedure) (segment : Segment) :
    (reading.endProcedure opened segment).tree.holders = reading.tree.holders := by
  rw [Reading.endProcedure, holders_closeProcedure, SyntaxTree.holders_widen]

theorem holders_blockLine (reading : Reading) (block : Nat) (segment : Segment) :
    (reading.blockLine block segment).tree.holders = reading.tree.holders := by
  unfold Reading.blockLine
  dsimp only
  split
  · split <;> simp only [SyntaxTree.holders_widen]
  · exact SyntaxTree.holders_widen _ _

theorem Holds.holders_beginProcedure (h : reading.Holds segments) {segment : Segment}
    {signature : Signature} (hshape : shapeOf segment.text = .procedureStart signature) :
    (reading.beginProcedure signature segment).tree.holders =
      reading.tree.holders ++ [some .moduleBody] := by
  have hbody := h.closeProcedure.1.stands.body_kind
  have hparts := SyntaxTree.addsParts_member (SyntaxTree.lt_size_of_kind? hbody) hshape
  rw [Reading.beginProcedure, SyntaxTree.holders_widen,
    SyntaxTree.holders_laidOut hbody rfl hparts, holders_closeProcedure]

/-- The room that is made for a statement lies in the block of the open member, else in an element of
the declarations. -/
theorem Holds.kind?_statementParent (h : reading.Holds segments) (selection : Selection) :
    (reading.statementParent selection).1.kind? (reading.statementParent selection).2 =
      some (if reading.openings.procedure then .block else .moduleDeclarationsElement) := by
  unfold Reading.statementParent openings
  cases hopened : reading.procedure with
  | some opened =>
    obtain ⟨hblock, -⟩ := h.stands.procedure_kind hopened
    simp [hblock]
  | none =>
    have hlt := SyntaxTree.lt_size_of_kind? h.stands.declarations_kind
    simp [SyntaxTree.kind?_addChild_self hlt]

theorem Holds.holders_plainStatement (h : reading.Holds segments) {segment : Segment}
    (hshape : ∀ signature, shapeOf segment.text ≠ .procedureStart signature) :
    (reading.plainStatement (shapeOf segment.text) segment).tree.holders =
      reading.tree.holders ++ [some (reading.openings.holder segment.text)] := by
  have hgrows := growsTo_statementParent h segment.selection
  have hnodes := statementNodes_statementParent h segment.selection
  have habove := h.kind?_statementParent segment.selection
  change ((reading.statementParent segment.selection).1.addStatement
    (reading.statementParent segment.selection).2 (shapeOf segment.text) segment).holders = _
  rw [Openings.holder_of_plain _ hshape]
  generalize reading.statementParent segment.selection = place at hgrows hnodes habove ⊢
  have hparts := SyntaxTree.addsParts_statement (SyntaxTree.lt_size_of_kind? habove) hshape
  have hholds : NodeKind.holdsStatements
      (if reading.openings.procedure then .block else .moduleDeclarationsElement) = true := by
    split <;> rfl
  rw [SyntaxTree.holders_laidOut habove hholds hparts, SyntaxTree.holders, hnodes,
    hgrows.map_holderKind?]

theorem Holds.holders_codeStatement (h : reading.Holds segments) (segment : Segment) :
    (reading.codeStatement segment).tree.holders = reading.tree.holders ++
      if (reading.openings.nextCode segment.text).2 then
        [some (reading.openings.holder segment.text)]
      else [] := by
  have hreads := readsAs_codeStatement reading segment
  generalize reading.codeStatement segment = later,
    (reading.openings.nextCode segment.text).2 = makes,
    reading.openings.endsMember segment.text = drops at hreads ⊢
  cases hreads with
  | blockLine hblock => exact (holders_blockLine reading _ segment).trans (List.append_nil _).symm
  | endProcedure => exact (holders_endProcedure reading _ segment).trans (List.append_nil _).symm
  | beginProcedure hclosed hshape =>
    rw [Openings.holder, hshape]
    exact h.holders_beginProcedure hshape
  | plainStatement hclosed hshape => exact h.holders_plainStatement hshape

theorem Holds.holders_statement (h : reading.Holds segments) (segment : Segment) :
    (reading.statement segment).tree.holders = reading.tree.holders ++
      if (reading.openings.next segment.text).2 then
        [some (reading.openings.holder segment.text)]
      else [] := by
  let moved : Reading := { reading with header := (reading.header.next segment.text).1 }
  have hmoved : moved.Holds segments := ⟨h.stands, h.renders⟩
  have hnext : reading.openings.next segment.text =
      if (reading.header.next segment.text).2 then
        ({ reading.openings with header := (reading.header.next segment.text).1 }, false)
      else moved.openings.nextCode segment.text := rfl
  rw [statement_eq, hnext]
  split
  · exact (List.append_nil _).symm
  · exact hmoved.holders_codeStatement segment

/-- Reading some lines puts the nodes of their statements in their places. -/
theorem Holds.holders_foldl_item (h : reading.Holds segments) (items : List LineItem) :
    (items.foldl Reading.item reading).tree.holders = reading.tree.holders ++
      (reading.openings.placed (items.filterMap (·.statement?))).map (some ·.2) := by
  induction items generalizing reading segments with
  | nil => exact (List.append_nil _).symm
  | cons item rest ih =>
    cases item with
    | comment segment =>
      obtain ⟨hheld, hopenings⟩ := h.comment segment
      have hsame : (reading.comment segment).tree = reading.tree := by
        obtain ⟨pending, annotations, heq⟩ := exists_comment_eq reading segment
        rw [heq]
      have hrest := ih hheld
      rw [hopenings, hsame] at hrest
      exact hrest
    | statement segment =>
      obtain ⟨hheld, hopenings⟩ := h.statement segment
      have hrest := ih hheld
      rw [hopenings, h.holders_statement, List.append_assoc] at hrest
      refine hrest.trans (congrArg _ ?_)
      change _ = (reading.openings.placed (segment :: rest.filterMap (·.statement?))).map _
      rw [Openings.placed]
      split <;> rfl

end Reading

/-- The nodes of the statements of a module stand, one by one, for the statements that make nodes, each
below a node of the kind that what is open calls for. -/
theorem forall₂_placed_readModule (component text : String) :
    let tree := (readModule component text).tree
    List.Forall₂ (fun id (placed : Segment × NodeKind) ↦
        tree.Renders id placed.1 ∧ tree.holderKind? id = some placed.2)
      tree.statementNodes (Openings.start.placed (statementsOf text.toList)) := by
  intro tree
  have hstart := Reading.holds_start component text.toList
  have hnone := List.forall₂_nil_right_iff.1 hstart.renders
  have hrenders : List.Forall₂ tree.Renders tree.statementNodes
      ((Openings.start.placed (statementsOf text.toList)).map (·.1)) := by
    rw [Openings.map_fst_placed]
    exact (hstart.foldl_item (lineItems text.toList)).renders
  have hholders : tree.statementNodes.map tree.holderKind? =
      (Openings.start.placed (statementsOf text.toList)).map (some ·.2) := by
    have hfinal := hstart.holders_foldl_item (lineItems text.toList)
    rw [SyntaxTree.holders, SyntaxTree.holders, hnone] at hfinal
    exact hfinal
  rw [List.forall₂_map_right_iff] at hrenders
  rw [← List.forall₂_eq_eq_eq, List.forall₂_map_left_iff, List.forall₂_map_right_iff] at hholders
  exact List.Forall₂.mp (fun _ _ h h' ↦ ⟨h, h'⟩) hrenders hholders

/-- A node of a kind stands below a node of another kind that holds statements if and only if a
statement whose node is of the kind is put there. -/
theorem exists_holderKind?_iff (component text : String) {kind above : NodeKind}
    (hholds : above.holdsStatements = true) :
    (∃ id, (readModule component text).tree.kind? id = some kind ∧
        (readModule component text).tree.holderKind? id = some above) ↔
      ∃ segment, (segment, above) ∈ Openings.start.placed (statementsOf text.toList) ∧
        (shapeOf segment.text).nodeKind = kind := by
  have hplaced := forall₂_placed_readModule component text
  generalize (readModule component text).tree = tree at hplaced
  constructor
  · rintro ⟨id, hkind, hholder⟩
    obtain ⟨holder, hparent, habove⟩ := SyntaxTree.holderKind?_eq_some_iff.1 hholder
    have hid : id ∈ tree.statementNodes := SyntaxTree.mem_statementNodes_iff_isStatement.2
      (SyntaxTree.isStatement_iff.2 ⟨holder, above, hparent, habove, hholds⟩)
    obtain ⟨⟨segment, place⟩, hmem, ⟨node, hnode, hshape, -⟩, hplace⟩ :=
      exists_of_mem_left hplaced hid
    cases hholder.symm.trans hplace
    refine ⟨segment, hmem, ?_⟩
    rw [← hshape]
    exact SyntaxTree.kind_eq_of_kind? hnode hkind
  · rintro ⟨segment, hmem, rfl⟩
    obtain ⟨id, -, ⟨node, hnode, hshape, -⟩, hplace⟩ := exists_of_mem_right hplaced hmem
    refine ⟨id, ?_, hplace⟩
    rw [SyntaxTree.kind?, hnode, Option.map_some, hshape]

end VbaLint
