import VbaLint.Proofs.Module.StatementNodes
import VbaLint.Proofs.Tree.Grammar

/-!
# Trees of modules and the grammar

Between two lines of a text the tree obeys the grammar throughout: a member is laid out with its name,
its parameters and its block at once, and an element of the declarations with its statement.
-/

namespace VbaLint

open Source Statement Text Tree

namespace Tree

/-- Only headers make members. -/
theorem NodeKind.isPlainStatement_statementKind {text : List Char}
    (h : ∀ signature, shapeOf text ≠ .procedureStart signature) :
    (SyntaxTree.statementKind (shapeOf text)).isPlainStatement = true := by
  cases hshape : shapeOf text with
  | procedureStart signature => exact absurd hshape (h signature)
  | option kind =>
    rcases optionKind?_cases (optionKind?_of_shapeOf hshape) with rfl | rfl | rfl | rfl <;> rfl
  | blockStart kind name =>
    rcases blockStart?_cases (blockStart?_of_shapeOf hshape) with rfl | rfl <;> rfl
  | _ => rfl

namespace SyntaxTree

variable {tree : SyntaxTree} {parent : Nat}

/-- What a statement consists of stands below its node as the kind of the node admits. -/
theorem appends_addStatement (hparent : parent < tree.size) (segment : Segment) {shape : Shape}
    (hshape : shapeOf segment.text = shape) :
    Appends tree (tree.addStatement parent shape segment) parent [statementKind shape] := by
  have hnode : tree.size < (tree.addChild parent (statementKind shape) segment.selection
      (String.ofList segment.text)).size := by simp
  unfold addStatement
  dsimp only
  cases shape with
  | option kind =>
    refine .leaf hparent _ ?_ _ _
    rcases optionKind?_cases (optionKind?_of_shapeOf hshape) with rfl | rfl | rfl | rfl <;> rfl
  | «attribute» => exact .leaf hparent .attributeStmt rfl _ _
  | declare => exact .leaf hparent .otherStmt (.inl rfl) _ _
  | blockStart kind name =>
    refine .node hparent (appends_identifier hnode segment name) ?_
    rcases blockStart?_cases (blockStart?_of_shapeOf hshape) with rfl | rfl <;> rfl
  | constants list =>
    obtain ⟨count, hitems⟩ := appends_addItems hnode
      (fun _ item hfurther ↦ appends_addConstant hfurther segment item) list
    exact .node hparent hitems fun _ hkind ↦ List.eq_of_mem_replicate hkind
  | «variables» list =>
    obtain ⟨count, hitems⟩ := appends_addItems hnode
      (fun _ item hfurther ↦ appends_addVariable hfurther segment item) list
    exact .node hparent hitems fun _ hkind ↦ List.eq_of_mem_replicate hkind
  | setAssignment assignment | letAssignment assignment =>
    obtain ⟨target, htarget, hsides⟩ := appends_addAssignment hnode segment assignment
    refine .node hparent hsides ?_
    rcases htarget with rfl | rfl
    · exact .inl rfl
    · exact .inr rfl
  | call expression =>
    exact .node hparent (appends_addExpression hnode segment expression) rfl
  | procedureEnd | procedureStart | blockEnd | other =>
    exact .node hparent (appends_addExpression hnode segment ⟨segment.text, 0⟩) (.inr rfl)

/-- A member is laid out with its block. -/
theorem appends_member (hparent : parent < tree.size) {signature : Signature}
    (hkind : signature.kind.isProcedure = true) (segment : Segment) :
    Appends tree ((tree.addMember parent signature segment).addChild tree.size .block .unset "") parent
      [signature.kind] := by
  let begun := tree.addChild parent signature.kind segment.selection (String.ofList segment.text)
  have hnode : tree.size < begun.size := by simp [begun]
  have hname := appends_identifier hnode segment signature.name
  obtain ⟨count, hmember⟩ : ∃ count,
      Appends begun (tree.addMember parent signature segment) tree.size
        (.identifier :: List.replicate count .arg) := by
    unfold addMember
    dsimp only
    split
    · exact ⟨0, hname⟩
    · next list _ =>
      obtain ⟨count, hitems⟩ := appends_addItems (Nat.lt_of_lt_of_le hnode hname.size_le)
        (fun _ item hfurther ↦ appends_addParameter hfurther segment item) list
      exact ⟨count, hname.trans hitems hnode⟩
  have hblock := Appends.leaf (Nat.lt_of_lt_of_le hnode hmember.size_le) .block
    (fun _ hkind ↦ absurd hkind List.not_mem_nil) .unset ""
  exact .node hparent (hmember.trans hblock hnode) (NodeKind.admits_of_isProcedure hkind count)

end SyntaxTree

end Tree

namespace Reading

variable {reading : Reading} {segments : List Segment}

theorem obeys_start (component : String) (source : List Char) :
    (Reading.start component source).tree.Obeys := by
  let root := SyntaxTree.ofRoot component (moduleSelection source)
  have hroot : 0 < root.size := root.size_pos
  have hdeclarations := SyntaxTree.Appends.leaf hroot .moduleDeclarations
    (fun _ hkind ↦ absurd hkind List.not_mem_nil) .unset ""
  have hbody := SyntaxTree.Appends.leaf (Nat.lt_of_lt_of_le hroot hdeclarations.size_le) .moduleBody
    (fun _ hkind ↦ absurd hkind List.not_mem_nil) .unset ""
  have hsections := hdeclarations.trans hbody hroot
  refine ⟨rfl, fun {id kind} hkind ↦ ?_⟩
  by_cases hid : id < root.size
  · have hzero : id = 0 := Nat.lt_one_iff.1 hid
    subst hzero
    cases (hsections.kind?_eq hid).symm.trans hkind
    exact hsections.childKinds_eq hid
  · exact hsections.admits (Nat.le_of_not_lt hid) hkind

/-- A member is put behind the others in the body. -/
theorem obeys_member (h : reading.tree.Obeys) (hheld : reading.Holds segments) {segment : Segment}
    {signature : Signature} (hshape : shapeOf segment.text = .procedureStart signature) :
    ((reading.tree.addMember body signature segment).addChild reading.tree.size .block .unset
      "").Obeys := by
  have hbody := hheld.stands.body_kind
  have hprocedure := isProcedure_of_signature? (signature?_of_shapeOf hshape)
  refine h.append
    (SyntaxTree.appends_member (SyntaxTree.lt_size_of_kind? hbody) hprocedure segment) ?_
  intro kind hkind hadmits
  cases hbody.symm.trans hkind
  refine List.forall_mem_append.2 ⟨hadmits, ?_⟩
  rintro _ hmember
  cases List.mem_singleton.1 hmember
  exact hprocedure

/-- Another statement is put behind the others in the block of the open member, or else, in an element
of its own, behind the other elements of the declarations. -/
theorem obeys_plainStatement (h : reading.tree.Obeys) (hheld : reading.Holds segments)
    {segment : Segment} (hshape : ∀ signature, shapeOf segment.text ≠ .procedureStart signature) :
    (reading.plainStatement (shapeOf segment.text) segment).tree.Obeys := by
  have hplain := NodeKind.isPlainStatement_statementKind hshape
  change ((reading.statementParent segment.selection).1.addStatement
    (reading.statementParent segment.selection).2 (shapeOf segment.text) segment).Obeys
  unfold Reading.statementParent
  split
  · next opened hopened =>
    obtain ⟨hblock, -⟩ := hheld.stands.procedure_kind hopened
    have hwidened := (h.widen opened.block segment.selection).widen opened.node segment.selection
    have hlt : opened.block < ((reading.tree.widen opened.block segment.selection).widen opened.node
        segment.selection).size := by
      simpa using SyntaxTree.lt_size_of_kind? hblock
    refine hwidened.append (SyntaxTree.appends_addStatement hlt segment rfl) ?_
    intro kind hkind hadmits
    rw [SyntaxTree.kind?_widen, SyntaxTree.kind?_widen] at hkind
    cases hblock.symm.trans hkind
    refine List.forall_mem_append.2 ⟨hadmits, ?_⟩
    rintro _ hstatement
    cases List.mem_singleton.1 hstatement
    exact hplain
  · have hdeclarations := hheld.stands.declarations_kind
    have hlt := SyntaxTree.lt_size_of_kind? hdeclarations
    have helement := (SyntaxTree.Appends.refl (reading.tree.addChild declarations
      .moduleDeclarationsElement segment.selection "") reading.tree.size).widen declarations
        segment.selection
    have hnew : reading.tree.size < (reading.tree.addChild declarations .moduleDeclarationsElement
        segment.selection "").size := by simp
    have hstatement := helement.trans (SyntaxTree.appends_addStatement
      (Nat.lt_of_lt_of_le hnew helement.size_le) segment rfl) hnew
    refine h.append (.node hlt hstatement ⟨_, hplain, rfl⟩) ?_
    intro kind hkind hadmits
    cases hdeclarations.symm.trans hkind
    refine List.forall_mem_append.2 ⟨hadmits, ?_⟩
    rintro _ hadded
    exact List.mem_singleton.1 hadded

theorem preserves_obeys : Preserves SyntaxTree.Obeys where
  widen h _ _ _ _ selection := h.widen _ selection
  member hheld h := obeys_member h hheld
  statement hheld h := obeys_plainStatement h hheld

end Reading

theorem obeys_readModule (component text : String) : (readModule component text).tree.Obeys :=
  Reading.preserves_obeys.readModule component text (Reading.obeys_start component text.toList)

/-- Every tree that is read obeys the grammar: its root is a module, and every node has children of
kinds that its own kind admits, in that order. -/
theorem readModule_obeys_grammar (component text : String) :
    let tree := (readModule component text).tree
    tree.kind? 0 = some .module ∧
      ∀ id kind, tree.kind? id = some kind →
        ∃ below, (tree.children id).map tree.kind? = below.map some ∧ kind.Admits below := by
  intro tree
  have hobeys : tree.Obeys := obeys_readModule component text
  refine ⟨hobeys.root, fun id kind hkind ↦ ?_⟩
  exact ⟨tree.childKinds id, tree.map_kind?_children id, hobeys.admits hkind⟩

end VbaLint
