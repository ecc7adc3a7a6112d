import VbaLint.Proofs.Module.Coverage
import VbaLint.Proofs.Tree.Moving

/-!
# Reading lines further down

A text is read in the same way wherever its lines stand: after each line the same things are open, the trees
have the same nodes, and ranges and annotations have moved with the lines.
-/

namespace VbaLint

open Source Statement Text Tree

def Annotation.moved (note : Annotation) (insertion : Insertion) : Annotation :=
  { note with selection := note.selection.moved insertion }

namespace Reading

variable {insertion : Insertion} {segment : Segment} {id : Nat}

/-! ## Ranges of open nodes -/

theorem movesTo_selectionOf {left right : SyntaxTree} (h : left.MovesTo insertion right) (hid : id ≠ 0) :
    (selectionOf left id).MovesTo insertion (selectionOf right id) := by
  rw [selectionOf, selectionOf]
  cases hnode : left.node? id with
  | none =>
    rw [SyntaxTree.node?_eq_none_of_size_eq h.size_eq hnode]
    exact Selection.movesTo_unset
  | some node =>
    obtain ⟨selection, hnode', hmoves⟩ := h.node? hnode
    rw [hnode']
    exact hmoves hid

/-- What is open stands below the root and has a range. -/
structure OpenPlaced (reading : Reading) : Prop where
  procedure {opened : OpenProcedure} : reading.procedure = some opened →
    opened.node ≠ 0 ∧ (selectionOf reading.tree opened.node).IsPlaced
  block {block : Nat} : reading.typeBlock = some block →
    block ≠ 0 ∧ (selectionOf reading.tree block).IsPlaced

theorem ne_zero_of_parent? {tree : SyntaxTree} {parent : Nat} (h : tree.parent? id = some parent) :
    id ≠ 0 :=
  Nat.ne_of_gt (Nat.lt_of_le_of_lt (Nat.zero_le parent) (SyntaxTree.parent_lt h))

theorem Measured.openPlaced {reading : Reading} {segments : List Segment}
    (h : reading.Measured segments) : reading.OpenPlaced := by
  obtain ⟨place, hranged, -⟩ := h.ranged
  refine ⟨fun hopened ↦ ?_, fun hblock ↦ ?_⟩
  · obtain ⟨-, hmember⟩ := hranged.opened_parent hopened
    exact ⟨ne_zero_of_parent? hmember, hranged.isPlaced_member hmember⟩
  · obtain ⟨hin, -⟩ := hranged.stands.block_kind hblock
    obtain ⟨holder, -, hholder, -, -⟩ := SyntaxTree.isStatement_iff.1 hin
    rw [hblock] at hranged
    exact ⟨ne_zero_of_parent? hholder, hranged.isPlaced_block⟩

theorem OpenPlaced.widen {reading : Reading} (h : reading.OpenPlaced) (widened : Nat)
    {selection : Selection} (hselection : selection.IsCounted)
    (pending : List (Directive × Selection)) (annotations : List Annotation) :
    OpenPlaced { reading with
      tree := reading.tree.widen widened selection
      pending, annotations } where
  procedure hopened :=
    ⟨(h.procedure hopened).1,
      isPlaced_selectionOf_widen (h.procedure hopened).2 widened hselection.isPlaced⟩
  block hblock :=
    ⟨(h.block hblock).1, isPlaced_selectionOf_widen (h.block hblock).2 widened hselection.isPlaced⟩

/-! ## Headers -/

theorem header_closeProcedure (reading : Reading) : reading.closeProcedure.header = reading.header := by
  unfold Reading.closeProcedure
  split <;> rfl

/-- Only the header of a file tells whether a statement belongs to it. -/
theorem header_codeStatement (reading : Reading) (segment : Segment) :
    (reading.codeStatement segment).header = reading.header := by
  unfold Reading.codeStatement
  split
  · unfold Reading.blockLine
    dsimp only
    split <;> rfl
  · split
    · exact header_closeProcedure reading
    · exact header_closeProcedure _
    · rfl

theorem header_statement (reading : Reading) (segment : Segment) :
    (reading.statement segment).header = (reading.header.next segment.text).1 := by
  unfold Reading.statement
  dsimp only
  split
  · rfl
  · exact header_codeStatement _ segment

/-! ## Steps of reading -/

/-- The readings are at one point, of which the second stands further down: the same is open, and what has
been read has moved with the lines. -/
structure MovesTo (insertion : Insertion) (left right : Reading) : Prop where
  tree : left.tree.MovesTo insertion right.tree
  procedure : left.procedure = right.procedure
  typeBlock : left.typeBlock = right.typeBlock
  pending : right.pending = left.pending.map fun (directive, selection) ↦
    (directive, selection.moved insertion)
  annotations : right.annotations = left.annotations.map (·.moved insertion)

namespace MovesTo

variable {left right : Reading} (h : left.MovesTo insertion right)
include h

theorem comment (segment : Segment) :
    (left.comment segment).MovesTo insertion (right.comment (segment.moved insertion)) := by
  have htext : (segment.moved insertion).text = segment.text := rfl
  unfold Reading.comment
  rw [htext]
  cases directive? segment.text with
  | none => exact h
  | some directive =>
    cases directive with
    | ignoreModule names | folder text =>
      refine ⟨h.tree, h.procedure, h.typeBlock, h.pending, ?_⟩
      rw [h.annotations, List.map_append]
      rfl
    | ignore names | description text =>
      refine ⟨h.tree, h.procedure, h.typeBlock, ?_, h.annotations⟩
      rw [h.pending, List.map_append]
      rfl

theorem attach (node : Nat) : (left.attach node).MovesTo insertion (right.attach node) := by
  refine ⟨h.tree, h.procedure, h.typeBlock, rfl, ?_⟩
  simp only [Reading.attach]
  rw [h.annotations, h.pending, List.map_append, List.map_map, List.map_map]
  rfl

/-- A member is left alike when lines are put into the text. -/
theorem closeProcedure (hopen : left.OpenPlaced) :
    left.closeProcedure.MovesTo insertion right.closeProcedure := by
  unfold Reading.closeProcedure
  rw [← h.procedure]
  cases hopened : left.procedure with
  | none => exact h
  | some opened =>
    obtain ⟨hbelow, hplaced⟩ := hopen.procedure hopened
    have hmoves := movesTo_selectionOf h.tree hbelow
    have hcounted := hmoves.counted.resolve_left hplaced.ne_unset
    dsimp only
    rw [hmoves.eq_moved]
    exact ⟨h.tree.widen body hcounted, rfl, h.typeBlock, h.pending, h.annotations⟩

/-- A statement finds the same parent when it is moved. -/
theorem statementParent {selection : Selection} (hselection : selection.IsCounted) :
    (left.statementParent selection).1.MovesTo insertion
        (right.statementParent (selection.moved insertion)).1 ∧
      (left.statementParent selection).2 = (right.statementParent (selection.moved insertion)).2 := by
  unfold Reading.statementParent
  rw [← h.procedure, ← h.tree.size_eq]
  cases left.procedure with
  | none =>
    exact ⟨(h.tree.addChild declarations .moduleDeclarationsElement hselection.movesTo "").widen declarations
      hselection, rfl⟩
  | some opened =>
    exact ⟨(h.tree.widen opened.block hselection).widen opened.node hselection, rfl⟩

variable (hsegment : segment.selection.IsCounted)
include hsegment

/-- The line that ends a member is read alike when it is moved. -/
theorem endProcedure (hopen : left.OpenPlaced) (opened : OpenProcedure) :
    (left.endProcedure opened segment).MovesTo insertion
      (right.endProcedure opened (segment.moved insertion)) := by
  have hwidened : ({ left with
      pending := []
      tree := left.tree.widen opened.node segment.selection } : Reading).MovesTo insertion
      { right with
        pending := []
        tree := right.tree.widen opened.node (segment.selection.moved insertion) } :=
    ⟨h.tree.widen opened.node hsegment, h.procedure, h.typeBlock, rfl, h.annotations⟩
  exact hwidened.closeProcedure (hopen.widen opened.node hsegment [] left.annotations)

/-- A line of an open block is read alike when it is moved. -/
theorem blockLine (hopen : left.OpenPlaced) {block : Nat} (hblock : left.typeBlock = some block) :
    (left.blockLine block segment).MovesTo insertion
      (right.blockLine block (segment.moved insertion)) := by
  have htree := h.tree.widen block hsegment
  have hline : ({ left with tree := left.tree.widen block segment.selection } : Reading).MovesTo insertion
      { right with tree := right.tree.widen block (segment.selection.moved insertion) } :=
    ⟨htree, h.procedure, h.typeBlock, h.pending, h.annotations⟩
  obtain ⟨hbelow, hplaced⟩ :=
    (hopen.widen block hsegment left.pending left.annotations).block hblock
  have hmoves := movesTo_selectionOf htree hbelow
  have hcounted := hmoves.counted.resolve_left hplaced.ne_unset
  have hattached := hline.attach block
  have htext : (segment.moved insertion).text = segment.text := rfl
  unfold Reading.blockLine
  rw [htext]
  cases shapeOf segment.text with
  | blockEnd =>
    have hselection : selectionOf (right.tree.widen block (segment.moved insertion).selection) block =
        (selectionOf (left.tree.widen block segment.selection) block).moved insertion := hmoves.eq_moved
    have hparent : (right.tree.widen block (segment.moved insertion).selection).parent? block =
        (left.tree.widen block segment.selection).parent? block := (htree.sameShape.parent?_eq block).symm
    dsimp only
    rw [hselection, hparent]
    refine ⟨?_, hattached.procedure, rfl, hattached.pending, hattached.annotations⟩
    dsimp only
    refine SyntaxTree.MovesTo.widen ?_ declarations hcounted
    cases (left.tree.widen block segment.selection).parent? block with
    | none => exact htree
    | some element => exact htree.widen element hcounted
  | _ => exact hattached

/-- Headers of members are read alike when they are moved. -/
theorem beginProcedure (hopen : left.OpenPlaced) (signature : Signature) :
    (left.beginProcedure signature segment).MovesTo insertion
      (right.beginProcedure signature (segment.moved insertion)) := by
  have hclosed := h.closeProcedure hopen
  unfold Reading.beginProcedure
  generalize left.closeProcedure = left' at hclosed ⊢
  generalize right.closeProcedure = right' at hclosed ⊢
  have hmember := hclosed.tree.addMember body hsegment signature
  have hattached := hclosed.attach left'.tree.size
  dsimp only
  rw [← hclosed.tree.size_eq, ← hmember.size_eq]
  refine ⟨?_, rfl, hattached.typeBlock, hattached.pending, hattached.annotations⟩
  exact (hmember.addChild left'.tree.size .block Selection.movesTo_unset "").widen body hsegment

/-- A statement that is no header is read alike when it is moved. -/
theorem plainStatement (shape : Shape) :
    (left.plainStatement shape segment).MovesTo insertion
      (right.plainStatement shape (segment.moved insertion)) := by
  obtain ⟨htree, hparent⟩ := h.statementParent hsegment
  have hplace : (segment.moved insertion).selection = segment.selection.moved insertion := rfl
  unfold Reading.plainStatement
  rw [hplace]
  generalize left.statementParent segment.selection = room at htree hparent ⊢
  generalize right.statementParent (segment.selection.moved insertion) = room' at htree hparent ⊢
  have hstatement := htree.addStatement room.2 hsegment shape
  dsimp only
  rw [← hparent, ← htree.size_eq]
  apply attach
  refine ⟨hstatement, h.procedure, ?_, h.pending, h.annotations⟩
  cases shape <;> first | exact h.typeBlock | rfl

/-- Any statement behind the file header is read alike when it is moved. -/
theorem codeStatement (hopen : left.OpenPlaced) :
    (left.codeStatement segment).MovesTo insertion (right.codeStatement (segment.moved insertion)) := by
  have htext : (segment.moved insertion).text = segment.text := rfl
  unfold Reading.codeStatement
  rw [← h.typeBlock, ← h.procedure, htext]
  cases hblock : left.typeBlock with
  | some block => exact h.blockLine hsegment hopen hblock
  | none =>
    have hplain (shape : Shape) := h.plainStatement hsegment shape
    dsimp only
    cases shapeOf segment.text with
    | procedureStart signature => exact h.beginProcedure hsegment hopen signature
    | procedureEnd =>
      cases left.procedure with
      | none => exact hplain .procedureEnd
      | some opened => exact h.endProcedure hsegment hopen opened
    | _ => exact hplain _

/-- A statement is read in the same way if the headers of both files take it for the same. -/
theorem statement (hopen : left.OpenPlaced)
    (hnext : left.header.next segment.text = right.header.next segment.text) :
    (left.statement segment).MovesTo insertion (right.statement (segment.moved insertion)) := by
  have hnext' : right.header.next (segment.moved insertion).text = left.header.next segment.text := hnext.symm
  unfold Reading.statement
  rw [hnext']
  generalize left.header.next segment.text = next
  have hheader : ({ left with header := next.1 } : Reading).MovesTo insertion
      { right with header := next.1 } :=
    ⟨h.tree, h.procedure, h.typeBlock, h.pending, h.annotations⟩
  dsimp only
  split
  · exact hheader
  · exact hheader.codeStatement hsegment ⟨hopen.procedure, hopen.block⟩

end MovesTo

/-! ## Runs of reading -/

theorem header_comment (reading : Reading) (segment : Segment) :
    (reading.comment segment).header = reading.header := by
  obtain ⟨pending, annotations, heq⟩ := exists_comment_eq reading segment
  rw [heq]

/-- Lines are read in the same way further down, where it is enough that the headers of both files take the
first statement for the same. -/
theorem MovesTo.foldl_item {left right : Reading} {segments : List Segment}
    (h : left.MovesTo insertion right) (hmeasured : left.Measured segments)
    (items : List LineItem) (hcounted : ∀ item ∈ items, item.segment.selection.IsCounted)
    (hnext : ∀ statement ∈ (items.filterMap (·.statement?)).head?,
      left.header.next statement.text = right.header.next statement.text) :
    (items.foldl Reading.item left).MovesTo insertion
      ((items.map (·.moved insertion)).foldl Reading.item right) := by
  induction items generalizing left right segments with
  | nil => exact h
  | cons item rest ih =>
    obtain ⟨hitem, hrest⟩ := List.forall_mem_cons.1 hcounted
    rw [List.map_cons, List.foldl_cons, List.foldl_cons]
    cases item with
    | comment segment =>
      have hleft : (left.item (.comment segment)).header = left.header := header_comment left segment
      have hright : (right.item ((LineItem.comment segment).moved insertion)).header = right.header :=
        header_comment right (segment.moved insertion)
      refine ih (h.comment segment) (follows_measured.comment hmeasured segment) hrest ?_
      rw [hleft, hright]
      exact hnext
    | statement segment =>
      have hsame := hnext segment rfl
      have hheader : (left.item (.statement segment)).header =
          (right.item ((LineItem.statement segment).moved insertion)).header :=
        (header_statement left segment).trans
          ((congrArg Prod.fst hsame).trans (header_statement right (segment.moved insertion)).symm)
      refine ih (h.statement hitem hmeasured.openPlaced hsame)
        (follows_measured.statement hmeasured hitem.isPlaced) hrest fun statement _ ↦ ?_
      rw [hheader]

end Reading

end VbaLint
