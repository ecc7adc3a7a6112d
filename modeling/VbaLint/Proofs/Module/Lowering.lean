import VbaLint.Proofs.Module.StatementNodes
import VbaLint.Proofs.Tree.Lowering

/-!
# Reading lowered texts

A text and the same text with its ASCII letters lowered are read in step: after each line the same
things are open, the trees are alike, and the annotations are the same but for the case of letters.
-/

namespace VbaLint

open Source Statement Text Tree

def Annotation.lowered (note : Annotation) : Annotation :=
  { note with directive := note.directive.lowered }

def ParsedModule.lowered (module : ParsedModule) : ParsedModule :=
  ⟨module.tree.lowered, module.annotations.map Annotation.lowered⟩

@[simp]
theorem Header.next_lowerAscii (header : Header) (statement : List Char) :
    header.next (lowerAscii statement) = header.next statement := by
  unfold next opensBlock
  rw [lowerAscii_lowerAscii]

namespace Reading

theorem moduleSelection_lowerAscii (source : List Char) :
    moduleSelection (lowerAscii source) = moduleSelection source := by
  simp [moduleSelection, Function.comp_def]

/-- The readings are at one point: the trees are alike, the same is open, and the directives are the
same but for case. -/
structure Alike (left right : Reading) : Prop where
  tree : left.tree.Alike right.tree
  procedure : left.procedure = right.procedure
  typeBlock : left.typeBlock = right.typeBlock
  header : left.header = right.header
  pending : left.pending.map (Prod.map Directive.lowered id) =
    right.pending.map (Prod.map Directive.lowered id)
  annotations : left.annotations.map Annotation.lowered = right.annotations.map Annotation.lowered

theorem alike_start (component : String) (source : List Char) :
    (start component source).Alike (start component (lowerAscii source)) := by
  rw [start, start, moduleSelection_lowerAscii]
  exact ⟨.refl _, rfl, rfl, rfl, rfl, rfl⟩

namespace Alike

variable {left right : Reading} (h : left.Alike right)
include h

/-- A comment in other case is waited for alike. -/
theorem comment (segment : Segment) :
    (left.comment segment).Alike (right.comment segment.lowered) := by
  have hdirective :
      directive? segment.lowered.text = (directive? segment.text).map Directive.lowered :=
    directive?_lowerAscii segment.text
  unfold Reading.comment
  rw [hdirective]
  cases directive? segment.text with
  | none => exact h
  | some directive =>
    cases directive with
    | ignoreModule names | folder text =>
      refine ⟨h.tree, h.procedure, h.typeBlock, h.header, h.pending, ?_⟩
      simp only [Option.map_some, Directive.lowered, List.map_append, h.annotations]
      simp [Directive.lowered, Annotation.lowered, Segment.lowered]
    | ignore names | description text =>
      refine ⟨h.tree, h.procedure, h.typeBlock, h.header, ?_, h.annotations⟩
      simp only [Option.map_some, Directive.lowered, List.map_append, h.pending]
      simp [Directive.lowered, Segment.lowered]

theorem attach (node : Nat) : (left.attach node).Alike (right.attach node) := by
  let attached (note : Directive × Selection) : Annotation := ⟨note.1, .node node, note.2⟩
  have hattached (pending : List (Directive × Selection)) :
      (pending.map attached).map Annotation.lowered =
        (pending.map (Prod.map Directive.lowered id)).map attached := by
    rw [List.map_map, List.map_map]
    rfl
  have hannotations : (left.annotations ++ left.pending.map attached).map Annotation.lowered =
      (right.annotations ++ right.pending.map attached).map Annotation.lowered := by
    rw [List.map_append, List.map_append, h.annotations, hattached, hattached, h.pending]
  exact ⟨h.tree, h.procedure, h.typeBlock, h.header, rfl, hannotations⟩

/-- Changes of the trees that leave them alike. -/
theorem withTree {tree tree' : SyntaxTree} (htree : tree.Alike tree') :
    ({ left with tree } : Reading).Alike { right with tree := tree' } :=
  ⟨htree, h.procedure, h.typeBlock, h.header, h.pending, h.annotations⟩

/-- Only identifiers may get other ranges in another case. -/
theorem selectionOf_eq {id : Nat} {kind : NodeKind} (hkind : left.tree.kind? id = some kind)
    (hname : kind ≠ .identifier) : selectionOf left.tree id = selectionOf right.tree id := by
  rw [selectionOf, h.tree.selection?_eq hkind hname, selectionOf]

/-- Members end alike in texts that differ in case. -/
theorem closeProcedure (hstands : Stands left.tree left.procedure left.typeBlock) :
    left.closeProcedure.Alike right.closeProcedure := by
  unfold Reading.closeProcedure
  rw [← h.procedure]
  cases hopened : left.procedure with
  | none => exact h
  | some opened =>
    obtain ⟨-, kind, hkind, hprocedure⟩ := hstands.procedure_kind hopened
    have hname : kind ≠ .identifier := by
      rintro rfl
      cases hprocedure
    dsimp only
    rw [h.selectionOf_eq hkind hname]
    exact ⟨h.tree.widen body _, rfl, h.typeBlock, h.header, h.pending, h.annotations⟩

/-- The line that ends a member is read alike in any case. -/
theorem endProcedure (hstands : Stands left.tree left.procedure left.typeBlock)
    (opened : OpenProcedure) (segment : Segment) :
    (left.endProcedure opened segment).Alike (right.endProcedure opened segment.lowered) := by
  have hwidened : ({ left with
      pending := []
      tree := left.tree.widen opened.node segment.selection } : Reading).Alike
      { right with
        pending := []
        tree := right.tree.widen opened.node segment.selection } :=
    ⟨h.tree.widen opened.node _, h.procedure, h.typeBlock, h.header, rfl, h.annotations⟩
  exact hwidened.closeProcedure (hstands.widen opened.node _)

/-- The lines of a block are read alike in any case. -/
theorem blockLine (hstands : Stands left.tree left.procedure left.typeBlock) {block : Nat}
    (hblock : left.typeBlock = some block) (segment : Segment) :
    (left.blockLine block segment).Alike (right.blockLine block segment.lowered) := by
  have htree := h.tree.widen block segment.selection
  have hline := (h.withTree htree).attach block
  obtain ⟨-, kind, hkind, hspans⟩ :=
    (hstands.widen block segment.selection).block_kind hblock
  have hname : kind ≠ .identifier := by
    rintro rfl
    cases hspans
  have hselection := (h.withTree htree).selectionOf_eq hkind hname
  dsimp only at hselection
  have hshape : shapeOf segment.lowered.text = (shapeOf segment.text).lowered :=
    shapeOf_lowerAscii segment.text
  unfold Reading.blockLine
  rw [hshape]
  cases shapeOf segment.text with
  | blockEnd =>
    dsimp only [Shape.lowered, Segment.lowered]
    rw [← htree.parent?_eq, ← hselection]
    refine ⟨?_, hline.procedure, rfl, hline.header, hline.pending, hline.annotations⟩
    dsimp only
    refine SyntaxTree.Alike.widen ?_ declarations _
    cases (left.tree.widen block segment.selection).parent? block with
    | none => exact htree
    | some element => exact htree.widen element _
  | _ => exact hline

/-- Headers are read alike in any case. -/
theorem beginProcedure (hstands : Stands left.tree left.procedure left.typeBlock)
    (signature : Signature) (segment : Segment) :
    (left.beginProcedure signature segment).Alike
      (right.beginProcedure signature.lowered segment.lowered) := by
  have hclosed := h.closeProcedure hstands
  unfold Reading.beginProcedure
  generalize left.closeProcedure = left' at hclosed ⊢
  generalize right.closeProcedure = right' at hclosed ⊢
  have hmember := SyntaxTree.alike_addMember hclosed.tree body segment signature
  have hattached := hclosed.attach left'.tree.size
  dsimp only
  rw [← hclosed.tree.size_eq, ← hmember.size_eq]
  refine ⟨?_, rfl, hattached.typeBlock, hattached.header, hattached.pending, hattached.annotations⟩
  exact (hmember.addChild left'.tree.size .block rfl (.inl rfl)).widen body segment.selection

theorem statementParent (selection : Selection) :
    (left.statementParent selection).1.Alike (right.statementParent selection).1 ∧
      (left.statementParent selection).2 = (right.statementParent selection).2 := by
  unfold Reading.statementParent
  rw [← h.procedure, ← h.tree.size_eq]
  cases left.procedure with
  | none => exact ⟨(h.tree.addChild _ _ rfl (.inl rfl)).widen declarations selection, rfl⟩
  | some opened => exact ⟨(h.tree.widen opened.block selection).widen opened.node selection, rfl⟩

/-- A statement outside headers is read alike in any case. -/
theorem plainStatement (shape : Shape) (segment : Segment) :
    (left.plainStatement shape segment).Alike
      (right.plainStatement shape.lowered segment.lowered) := by
  obtain ⟨htree, hparent⟩ := h.statementParent segment.selection
  unfold Reading.plainStatement
  have hselection : segment.lowered.selection = segment.selection := rfl
  rw [hselection]
  generalize left.statementParent segment.selection = place at htree hparent ⊢
  generalize right.statementParent segment.selection = place' at htree hparent ⊢
  have hstatement := SyntaxTree.alike_addStatement htree place.2 segment shape
  dsimp only
  rw [← hparent, ← htree.size_eq]
  apply attach
  refine ⟨hstatement, h.procedure, ?_, h.header, h.pending, h.annotations⟩
  cases shape <;> first | exact h.typeBlock | rfl

/-- Every statement behind the file header is read alike in any case. -/
theorem codeStatement (hstands : Stands left.tree left.procedure left.typeBlock)
    (segment : Segment) :
    (left.codeStatement segment).Alike (right.codeStatement segment.lowered) := by
  have hshape : shapeOf segment.lowered.text = (shapeOf segment.text).lowered :=
    shapeOf_lowerAscii segment.text
  unfold Reading.codeStatement
  rw [← h.typeBlock, ← h.procedure, hshape]
  cases hblock : left.typeBlock with
  | some block => exact h.blockLine hstands hblock segment
  | none =>
    have hplain (shape : Shape) := h.plainStatement shape segment
    dsimp only
    cases shapeOf segment.text with
    | procedureStart signature => exact h.beginProcedure hstands signature segment
    | procedureEnd =>
      cases left.procedure with
      | none => exact hplain .procedureEnd
      | some opened => exact h.endProcedure hstands opened segment
    | _ => exact hplain _

/-- Statements are read alike in any case. -/
theorem statement (hstands : Stands left.tree left.procedure left.typeBlock) (segment : Segment) :
    (left.statement segment).Alike (right.statement segment.lowered) := by
  have hnext : right.header.next segment.lowered.text = left.header.next segment.text := by
    rw [← h.header]
    exact Header.next_lowerAscii left.header segment.text
  unfold Reading.statement
  rw [hnext]
  generalize left.header.next segment.text = next
  have hheader : ({ left with header := next.1 } : Reading).Alike
      { right with header := next.1 } :=
    ⟨h.tree, h.procedure, h.typeBlock, rfl, h.pending, h.annotations⟩
  dsimp only
  split
  · exact hheader
  · exact hheader.codeStatement hstands segment

end Alike

/-- After some lines the readings are at one point if they were before. -/
theorem Alike.foldl_item {left right : Reading} (h : left.Alike right) {segments : List Segment}
    (hheld : left.Holds segments) (items : List LineItem) :
    (items.foldl Reading.item left).Alike
      ((items.map LineItem.lowered).foldl Reading.item right) := by
  induction items generalizing left right segments with
  | nil => exact h
  | cons item rest ih =>
    cases item with
    | comment segment => exact ih (h.comment segment) (hheld.comment segment).1
    | statement segment =>
      exact ih (h.statement hheld.stands segment) (hheld.statement segment).1

end Reading

/-- What is read of a text has the lowered form of what is read of the lowered text. -/
theorem lowered_readModule (component text : String) :
    (readModule component (lowerAsciiString text)).lowered =
      (readModule component text).lowered := by
  let final (source : List Char) := (lineItems source).foldl Reading.item (.start component source)
  have hread : (final text.toList).Alike (final (lowerAscii text.toList)) := by
    simp only [final]
    rw [lineItems_lowerAscii]
    exact (Reading.alike_start component text.toList).foldl_item (Reading.holds_start component _) _
  rw [readModule, readModule, toList_lowerAsciiString, ParsedModule.lowered, ParsedModule.lowered,
    ParsedModule.mk.injEq]
  exact ⟨hread.tree.symm, hread.annotations.symm⟩

end VbaLint
