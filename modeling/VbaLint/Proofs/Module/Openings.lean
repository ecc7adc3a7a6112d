import VbaLint.Proofs.Module.StatementFacts

/-!
# What is open while a module is read

Each statement behind the file header is read in one of four ways, and which one depends on what is open.
While a block of declarations is open, its node is the last node of a statement.
-/

namespace VbaLint

open Source Statement Text Tree

namespace Openings

def after (openings : Openings) (segments : List Segment) : Openings :=
  segments.foldl (fun reached segment ↦ (reached.next segment.text).1) openings

/-- Statements are kept in order, and some are left out. -/
theorem kept_sublist (openings : Openings) (segments : List Segment) :
    (openings.kept segments).Sublist segments := by
  induction segments generalizing openings with
  | nil => exact .slnil
  | cons segment rest ih =>
    rw [kept]
    split
    · exact (ih _).cons_cons segment
    · exact (ih _).cons segment

/-- The statement ends the open member. The lines of an open block end no member. -/
def endsMember (openings : Openings) (statement : List Char) : Bool :=
  !openings.block && openings.procedure && shapeOf statement == .procedureEnd

/-- A statement makes a node unless it stands in a block or ends a member. -/
theorem makes_nextCode (openings : Openings) (statement : List Char) :
    (openings.nextCode statement).2 = (!openings.block && !openings.endsMember statement) := by
  unfold nextCode endsMember
  cases openings.block with
  | true => rfl
  | false =>
    cases hshape : shapeOf statement with
    | procedureEnd => cases openings.procedure <;> rfl
    | _ => cases openings.procedure <;> rfl

end Openings

namespace Reading

variable {reading : Reading} {segments : List Segment}

/-! ## Ways to read a statement -/

theorem typeBlock_closeProcedure (reading : Reading) :
    reading.closeProcedure.typeBlock = reading.typeBlock := by
  unfold Reading.closeProcedure
  split <;> rfl

/-- The ways in which a statement behind the file header is read: what comes of it, whether it makes a
node, and whether it drops the directives that wait. -/
inductive ReadsAs (reading : Reading) (segment : Segment) : Reading → Bool → Bool → Prop
  | blockLine {block : Nat} (hblock : reading.typeBlock = some block) :
    reading.ReadsAs segment (reading.blockLine block segment) false false
  | endProcedure {opened : OpenProcedure} (hclosed : reading.typeBlock = none)
    (hopened : reading.procedure = some opened) :
    reading.ReadsAs segment (reading.endProcedure opened segment) false true
  | beginProcedure {signature : Signature} (hclosed : reading.typeBlock = none)
    (hshape : shapeOf segment.text = .procedureStart signature) :
    reading.ReadsAs segment (reading.beginProcedure signature segment) true false
  | plainStatement (hclosed : reading.typeBlock = none)
    (hshape : ∀ signature, shapeOf segment.text ≠ .procedureStart signature) :
    reading.ReadsAs segment (reading.plainStatement (shapeOf segment.text) segment) true false

/-- A statement behind the file header is read as the openings say. -/
theorem readsAs_codeStatement (reading : Reading) (segment : Segment) :
    reading.ReadsAs segment (reading.codeStatement segment)
      (reading.openings.nextCode segment.text).2 (reading.openings.endsMember segment.text) := by
  unfold Reading.codeStatement Openings.nextCode Openings.endsMember openings
  cases hblock : reading.typeBlock with
  | some block => exact .blockLine hblock
  | none =>
    have hplain : (∀ signature, shapeOf segment.text ≠ .procedureStart signature) →
        reading.ReadsAs segment (reading.plainStatement (shapeOf segment.text) segment) true false :=
      .plainStatement hblock
    dsimp only
    cases hshape : shapeOf segment.text with
    | procedureStart signature => cases reading.procedure <;> exact .beginProcedure hblock hshape
    | procedureEnd =>
      rw [hshape] at hplain
      cases hopened : reading.procedure with
      | some opened => exact .endProcedure hblock hopened
      | none => exact hplain fun _ ↦ Shape.noConfusion
    | _ =>
      rw [hshape] at hplain
      cases reading.procedure <;> exact hplain fun _ ↦ Shape.noConfusion

/-! ## Nodes of statements -/

/-- Leaving a member makes no node of a statement. -/
theorem statementNodes_closeProcedure (reading : Reading) :
    reading.closeProcedure.tree.statementNodes = reading.tree.statementNodes := by
  unfold Reading.closeProcedure
  split
  · rfl
  · exact SyntaxTree.statementNodes_widen _ _

/-- A line of an open block makes no node of a statement. -/
theorem statementNodes_blockLine (reading : Reading) (block : Nat) (segment : Segment) :
    (reading.blockLine block segment).tree.statementNodes = reading.tree.statementNodes := by
  unfold Reading.blockLine
  dsimp only
  split
  · split <;> simp only [SyntaxTree.statementNodes_widen]
  · exact SyntaxTree.statementNodes_widen _ _

/-- The header of a member makes one node of a statement. -/
theorem Holds.statementNodes_beginProcedure (h : reading.Holds segments) {segment : Segment}
    {signature : Signature} (hshape : shapeOf segment.text = .procedureStart signature) :
    (reading.beginProcedure signature segment).tree.statementNodes =
      reading.tree.statementNodes ++ [reading.closeProcedure.tree.size] := by
  have hbody := h.closeProcedure.1.stands.body_kind
  have hparts := SyntaxTree.addsParts_member (SyntaxTree.lt_size_of_kind? hbody) hshape
  rw [Reading.beginProcedure, SyntaxTree.statementNodes_widen,
    SyntaxTree.statementNodes_laidOut hbody rfl hparts, statementNodes_closeProcedure]

/-- A statement that is no header makes one node. -/
theorem Holds.statementNodes_plainStatement (h : reading.Holds segments) {segment : Segment}
    (hshape : ∀ signature, shapeOf segment.text ≠ .procedureStart signature) :
    (reading.plainStatement (shapeOf segment.text) segment).tree.statementNodes =
      reading.tree.statementNodes ++ [(reading.statementParent segment.selection).1.size] := by
  obtain ⟨-, -, above, habove, hholds⟩ := h.statementParent segment.selection
  have hparts := SyntaxTree.addsParts_statement (SyntaxTree.lt_size_of_kind? habove) hshape
  change ((reading.statementParent segment.selection).1.addStatement
    (reading.statementParent segment.selection).2 (shapeOf segment.text) segment).statementNodes = _
  rw [SyntaxTree.statementNodes_laidOut habove hholds hparts, statementNodes_statementParent h]

/-! ## Open blocks -/

/-- The node of an open block is the last node of a statement, which opens a block. -/
structure Tracks (reading : Reading) (segments : List Segment) : Prop
    extends reading.Holds segments where
  block_last {block : Nat} : reading.typeBlock = some block →
    reading.tree.statementNodes.getLast? = some block ∧
      ∃ opener, segments.getLast? = some opener ∧ (shapeOf opener.text).opensBlock = true

theorem tracks_start (component : String) (source : List Char) :
    (Reading.start component source).Tracks [] :=
  ⟨holds_start component source, nofun⟩

theorem Tracks.blockLine (h : reading.Tracks segments) {block : Nat}
    (hblock : reading.typeBlock = some block) (segment : Segment) :
    (reading.blockLine block segment).Tracks segments := by
  refine ⟨(h.toHolds.blockLine hblock segment).1, fun {other} hother ↦ ?_⟩
  rw [statementNodes_blockLine]
  apply h.block_last
  rw [Reading.blockLine] at hother
  dsimp only at hother
  split at hother
  · cases hother
  · exact hother

/-- A block is open behind the statement that opens it. -/
theorem typeBlock_plainStatement (reading : Reading) (shape : Shape) (segment : Segment) :
    (reading.plainStatement shape segment).typeBlock =
      if shape.opensBlock then some (reading.statementParent segment.selection).1.size
      else reading.typeBlock := by
  cases shape <;> rfl

theorem Holds.tracks_plainStatement (h : reading.Holds segments) (hclosed : reading.typeBlock = none)
    {segment : Segment} (hshape : ∀ signature, shapeOf segment.text ≠ .procedureStart signature) :
    (reading.plainStatement (shapeOf segment.text) segment).Tracks (segments ++ [segment]) := by
  refine ⟨(h.plainStatement hclosed segment hshape).1, fun {block} hblock ↦ ?_⟩
  rw [typeBlock_plainStatement, hclosed] at hblock
  rw [h.statementNodes_plainStatement hshape, List.getLast?_concat, List.getLast?_concat]
  obtain ⟨hopens, hnode⟩ := Option.ite_none_right_eq_some.1 hblock
  exact ⟨hnode, segment, rfl, hopens⟩

/-- The openings of a reading go on with each statement behind the file header. -/
theorem Tracks.codeStatement (h : reading.Tracks segments) (segment : Segment) :
    (reading.codeStatement segment).Tracks
      (if (reading.openings.nextCode segment.text).2 then segments ++ [segment] else segments) := by
  have hheld := (h.toHolds.codeStatement segment).1
  have hreads := readsAs_codeStatement reading segment
  generalize reading.codeStatement segment = later,
    (reading.openings.nextCode segment.text).2 = makes,
    reading.openings.endsMember segment.text = drops at hreads hheld ⊢
  cases hreads with
  | blockLine hblock => exact h.blockLine hblock segment
  | @endProcedure opened hclosed =>
    have hsame : (reading.endProcedure opened segment).typeBlock = none := by
      rw [Reading.endProcedure, typeBlock_closeProcedure, hclosed]
    exact ⟨hheld, fun hblock ↦ by rw [hsame] at hblock; cases hblock⟩
  | @beginProcedure signature hclosed =>
    have hsame : (reading.beginProcedure signature segment).typeBlock = none :=
      (typeBlock_closeProcedure reading).trans hclosed
    exact ⟨hheld, fun hblock ↦ by rw [hsame] at hblock; cases hblock⟩
  | plainStatement hclosed hshape => exact h.toHolds.tracks_plainStatement hclosed hshape

theorem Tracks.withHeader (h : reading.Tracks segments) (header : Header) :
    ({ reading with header } : Reading).Tracks segments :=
  ⟨⟨h.stands, h.renders⟩, h.block_last⟩

theorem Tracks.comment (h : reading.Tracks segments) (segment : Segment) :
    (reading.comment segment).Tracks segments := by
  obtain ⟨pending, annotations, heq⟩ := exists_comment_eq reading segment
  rw [heq]
  exact ⟨⟨h.stands, h.renders⟩, h.block_last⟩

/-- What was read is tracked whatever is read. -/
theorem follows_tracks : Follows (fun _ ↦ True) Tracks where
  holds h := h.toHolds
  outside h header pending annotations :=
    ⟨follows_holds.outside h.toHolds header pending annotations, h.block_last⟩
  code h segment _ := h.codeStatement segment

/-- Only statements open and close anything. -/
theorem Holds.openings_foldl_item (h : reading.Holds segments) (items : List LineItem) :
    (items.foldl Reading.item reading).openings =
      reading.openings.after (items.filterMap (·.statement?)) := by
  induction items generalizing reading segments with
  | nil => rfl
  | cons item rest ih =>
    cases item with
    | comment segment =>
      obtain ⟨hheld, hopenings⟩ := h.comment segment
      have hrest := ih hheld
      rw [hopenings] at hrest
      exact hrest
    | statement segment =>
      obtain ⟨hheld, hopenings⟩ := h.statement segment
      have hrest := ih hheld
      rw [hopenings] at hrest
      exact hrest

/-- The statements that are kept are those that make nodes. -/
theorem Tracks.foldl_item (h : reading.Tracks segments) (items : List LineItem) :
    (items.foldl Reading.item reading).Tracks
        (segments ++ reading.openings.kept (items.filterMap (·.statement?))) ∧
      (items.foldl Reading.item reading).openings =
        reading.openings.after (items.filterMap (·.statement?)) :=
  ⟨follows_tracks.foldl_item h items fun _ _ ↦ trivial, h.toHolds.openings_foldl_item items⟩

/-! ## Numbers of nodes -/

theorem preserves_isPrefix (nodes : List Nat) :
    Preserves fun tree ↦ nodes <+: tree.statementNodes where
  widen h id kind _ _ selection := by
    rw [SyntaxTree.statementNodes_widen]
    exact h
  member hheld h segment signature hshape := by
    have hbody := hheld.stands.body_kind
    have hparts := SyntaxTree.addsParts_member (SyntaxTree.lt_size_of_kind? hbody) hshape
    rw [SyntaxTree.statementNodes_laidOut hbody rfl hparts]
    exact h.trans (List.prefix_append _ _)
  statement hheld h segment hshape := by
    rw [hheld.statementNodes_plainStatement hshape]
    exact h.trans (List.prefix_append _ _)

/-- The last node of a statement keeps its number among those nodes. -/
theorem Holds.last_node (h : reading.Holds segments) {last : Segment} {node : Nat}
    (hlast : segments.getLast? = some last)
    (hnode : reading.tree.statementNodes.getLast? = some node) (items : List LineItem) :
    (items.foldl Reading.item reading).tree.statementNodes[segments.length - 1]? = some node ∧
      (items.foldl Reading.item reading).tree.Renders node last := by
  have hlength := h.renders.length_eq
  have hfinal := h.foldl_item items
  obtain ⟨further, hfurther⟩ := (preserves_isPrefix reading.tree.statementNodes).foldl_item h
    List.prefix_rfl items
  have hpos : segments.length - 1 < segments.length := by
    have hne := List.ne_nil_of_mem (List.mem_of_getLast? hlast)
    have hlen := List.length_pos_iff.2 hne
    omega
  have hat : (items.foldl Reading.item reading).tree.statementNodes[segments.length - 1]? =
      some node := by
    rw [← hfurther, List.getElem?_append_left (hlength ▸ hpos), ← hlength,
      ← List.getLast?_eq_getElem?, hnode]
  refine ⟨hat, ?_⟩
  obtain ⟨hin, hget⟩ := List.getElem?_eq_some_iff.1 hat
  obtain ⟨hsame, hrenders⟩ := List.forall₂_iff_get.1 hfinal.renders
  have hlt := hsame ▸ hin
  have hstands := hrenders (segments.length - 1) hin hlt
  have hsegment : (segments ++ reading.openings.kept (items.filterMap (·.statement?))).get
      ⟨segments.length - 1, hlt⟩ = last := by
    apply Option.some.inj
    rw [← hlast, List.getLast?_eq_getElem?, List.get_eq_getElem, ← List.getElem?_eq_getElem,
      List.getElem?_append_left hpos]
  rw [List.get_eq_getElem, hget, hsegment] at hstands
  exact hstands

end Reading

end VbaLint
