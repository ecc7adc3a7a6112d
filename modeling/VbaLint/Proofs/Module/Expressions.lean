import VbaLint.Proofs.Module.Holders
import VbaLint.Proofs.Module.Parts
import VbaLint.Proofs.Statement.Names
import VbaLint.Proofs.Tree.Visits

/-!
# Expressions and their words

An expression is put into the tree together with its words, and later nothing is put below it. So below
every expression of a module stand just the words that occur in its text.
-/

namespace VbaLint

open Source Statement Text Tree

namespace Tree.SyntaxTree

variable {tree grown further : SyntaxTree} {id parent : Nat} {above : NodeKind}

/-- If the node is an expression, then its words stand below it. -/
def IsScannedAt (tree : SyntaxTree) (id : Nat) : Prop :=
  ∀ text, tree.part? id = some (.expression, String.ofList text) →
    tree.partsBelow id = wordParts text

def IsScanned (tree : SyntaxTree) : Prop := ∀ id, tree.IsScannedAt id

theorem isScannedAt_of_kind? (h : tree.kind? id ≠ some .expression) : tree.IsScannedAt id :=
  fun _ hpart ↦ absurd (part?_eq_some_iff.1 hpart).1 h

theorem Keeps.isScannedAt {takes : Nat → Prop} (h : Keeps takes tree grown) (hid : id < tree.size)
    (htakes : tree.kind? id = some .expression → ¬ takes id) (hscanned : tree.IsScannedAt id) :
    grown.IsScannedAt id := by
  intro text hpart
  rw [h.part?_eq hid] at hpart
  rw [h.partsBelow_eq hid (htakes (part?_eq_some_iff.1 hpart).1)]
  exact hscanned text hpart

namespace IsScanned

variable (h : tree.IsScanned)
include h

/-- The words of an expression are its children, in their order. -/
theorem getElem?_children {text : List Char}
    (hpart : tree.part? id = some (.expression, String.ofList text)) {index : Nat} {word : Span}
    (hword : (occurrences text)[index]? = some word) :
    ∃ child, (tree.children id)[index]? = some child ∧
      tree.part? child = some (.identifier, String.ofList word.text) := by
  have hparts := congrArg (fun parts ↦ parts[index]?) (tree.map_part?_children id)
  rw [h id text hpart, wordParts, List.map_map, List.getElem?_map, List.getElem?_map, hword,
    Option.map_some] at hparts
  exact Option.map_eq_some_iff.1 hparts

/-- Below an expression stand words that a scan can take. -/
theorem isIdentifierChar_of_mem {text : String} (hparent : tree.parent? id = some parent)
    (habove : tree.kind? parent = some .expression) (htext : tree.text? id = some text) {c : Char}
    (hc : c ∈ text.toList) : isIdentifierChar c = true := by
  obtain ⟨kind, hkind⟩ := exists_kind?_of_lt (lt_size_of_text? htext)
  obtain ⟨node, hnode, -⟩ := Option.map_eq_some_iff.1 habove
  have hpart : tree.part? parent = some (.expression, String.ofList node.text.toList) := by
    rw [part?_eq_some_iff, text?, hnode, String.ofList_toList]
    exact ⟨habove, rfl⟩
  have hmem : (kind, text) ∈ wordParts node.text.toList := by
    rw [← h parent _ hpart]
    exact List.mem_filterMap.2 ⟨id, mem_children.2 hparent, part?_eq_some_iff.2 ⟨hkind, htext⟩⟩
  obtain ⟨word, hword, heq⟩ := List.mem_map.1 hmem
  cases heq
  rw [String.toList_ofList] at hc
  exact isIdentifierChar_of_mem_occurrencesFrom hword hc

end IsScanned

/-! ## Growing -/

/-- The second tree is the first with further nodes: none below an expression of the first, and every new
expression with its words. -/
structure GrowsScanned (tree grown : SyntaxTree) : Prop where
  keeps : Keeps (fun id ↦ tree.kind? id ≠ some .expression) tree grown
  scanned {id : Nat} : tree.size ≤ id → grown.IsScannedAt id

/-- The words of expressions are complete in what grows out of a tree in which they are. -/
theorem IsScanned.grow (h : tree.IsScanned) (hgrows : tree.GrowsScanned grown) : grown.IsScanned := by
  intro id
  by_cases hid : id < tree.size
  · exact hgrows.keeps.isScannedAt hid (fun hkind hne ↦ hne hkind) (h id)
  · exact hgrows.scanned (Nat.le_of_not_lt hid)

namespace GrowsScanned

theorem refl (tree : SyntaxTree) : tree.GrowsScanned tree where
  keeps := .refl _ tree
  scanned hid := isScannedAt_of_kind? fun hkind ↦
    absurd (lt_size_of_kind? hkind) (Nat.not_lt_of_le hid)

theorem trans (h : tree.GrowsScanned grown) (h' : grown.GrowsScanned further) :
    tree.GrowsScanned further where
  keeps := by
    refine h.keeps.trans (h'.keeps.mono fun id hne hkind ↦ hne ?_)
    rw [h.keeps.kind?_eq (lt_size_of_kind? hkind), hkind]
  scanned {id} hid := by
    by_cases hlt : id < grown.size
    · exact h'.keeps.isScannedAt hlt (fun hkind hne ↦ hne hkind) (h.scanned hid)
    · exact h'.scanned (Nat.le_of_not_lt hlt)

theorem kind?_eq (h : tree.GrowsScanned grown) (habove : tree.kind? parent = some above) :
    grown.kind? parent = some above := by
  rw [h.keeps.kind?_eq (lt_size_of_kind? habove), habove]

theorem widen (tree : SyntaxTree) (widened : Nat) (selection : Selection) :
    tree.GrowsScanned (tree.widen widened selection) where
  keeps := (Keeps.refl _ tree).widen widened selection
  scanned {id} hid := isScannedAt_of_kind? fun hkind ↦ by
    rw [kind?_widen] at hkind
    exact absurd (lt_size_of_kind? hkind) (Nat.not_lt_of_le hid)

section Below

variable (habove : tree.kind? parent = some above) (hplain : above ≠ .expression)
include habove hplain

theorem addChild {kind : NodeKind} (hkind : kind ≠ .expression) (selection : Selection)
    (text : String) : tree.GrowsScanned (tree.addChild parent kind selection text) where
  keeps := by
    refine (Keeps.refl _ tree).addChild (lt_size_of_kind? habove) (fun _ ↦ ?_) kind selection text
    rw [habove]
    exact fun heq ↦ hplain (Option.some.inj heq)
  scanned {id} hid := isScannedAt_of_kind? fun hexpression ↦ by
    have hlt := lt_size_of_kind? hexpression
    rw [size_addChild] at hlt
    obtain rfl : id = tree.size := Nat.le_antisymm (Nat.le_of_lt_succ hlt) hid
    rw [kind?_addChild_self (lt_size_of_kind? habove)] at hexpression
    exact hkind (Option.some.inj hexpression)

/-- A new node that is no expression is laid out with what stands below it. -/
theorem node (kind : NodeKind) (hkind : kind ≠ .expression) (selection : Selection) (text : String)
    (hbelow : (tree.addChild parent kind selection text).kind? tree.size = some kind →
      (tree.addChild parent kind selection text).GrowsScanned grown) : tree.GrowsScanned grown :=
  (addChild habove hplain hkind selection text).trans
    (hbelow (kind?_addChild_self (lt_size_of_kind? habove)))

variable (statement : Segment)

theorem identifier (name : Span) :
    tree.GrowsScanned (tree.addSpan parent .identifier statement name) :=
  addChild habove hplain (by decide) _ _

omit habove hplain in
/-- Words alone come behind the node of an expression that is laid out. -/
theorem kind?_foldl_addSpan (hparent : parent < tree.size) (words : List Span)
    (hid : tree.size ≤ id) :
    (words.foldl (fun further word ↦ further.addSpan parent .identifier statement word)
      tree).kind? id ≠ some .expression := by
  induction words generalizing tree with
  | nil => exact fun hkind ↦ absurd (lt_size_of_kind? hkind) (Nat.not_lt_of_le hid)
  | cons word words ih =>
    have hlt : parent < (tree.addSpan parent .identifier statement word).size := by
      rw [size_addSpan]
      exact Nat.lt_succ_of_lt hparent
    rw [List.foldl_cons]
    rcases Nat.eq_or_lt_of_le hid with rfl | hbehind
    · have hkeeps := ((AddsBelow.refl parent _).foldl_addSpan hlt (.inl rfl) .identifier statement
        words).keeps
      rw [hkeeps.kind?_eq (by simp), addSpan, kind?_addChild_self hparent]
      decide
    · exact ih hlt (by rw [size_addSpan]; exact hbehind)

/-- An expression is laid out with its words. -/
theorem addExpression (side : Span) :
    tree.GrowsScanned (tree.addExpression parent statement side) where
  keeps := by
    refine (addsBelow_addExpression statement (lt_size_of_kind? habove) side).keeps.mono ?_
    rintro id rfl hkind
    rw [habove] at hkind
    exact hplain (Option.some.inj hkind)
  scanned {id} hid := by
    have hparent := lt_size_of_kind? habove
    have hnew : tree.size < (tree.addSpan parent .expression statement side).size := by simp
    rcases Nat.eq_or_lt_of_le hid with rfl | hbehind
    · have hpart : (tree.addExpression parent statement side).part? tree.size =
          some (.expression, String.ofList side.text) := by
        rw [addExpression_eq_foldl, ((AddsBelow.refl tree.size _).foldl_addSpan hnew (.inl rfl)
          .identifier statement _).keeps.part?_eq hnew, addSpan, part?_addChild_self hparent]
      intro text htext
      rw [hpart] at htext
      rw [(partsBelow_addExpression statement hparent side).2,
        String.ofList_inj.1 (congrArg Prod.snd (Option.some.inj htext))]
    · rw [addExpression_eq_foldl]
      refine isScannedAt_of_kind? (kind?_foldl_addSpan statement hnew _ ?_)
      simpa [Nat.succ_le_iff] using hbehind

omit hplain in
/-- A list is scanned if each of its items is. -/
theorem addItems {add : SyntaxTree → Span → SyntaxTree}
    (hadd : ∀ (further : SyntaxTree) item, further.kind? parent = some above →
      further.GrowsScanned (add further item)) (list : Span) :
    tree.GrowsScanned (tree.addItems add list) := by
  unfold SyntaxTree.addItems
  generalize items list.text = spans
  induction spans generalizing tree with
  | nil => exact refl tree
  | cons span spans ih =>
    have hfirst := hadd tree ⟨span.text, list.offset + span.offset⟩ habove
    exact hfirst.trans (ih (hfirst.kind?_eq habove))

/-! ## Parts of statements -/

theorem addConstant (item : Span) : tree.GrowsScanned (tree.addConstant parent statement item) := by
  let begun := tree.addSpan parent .constSubStmt statement item
  let name := item.text.takeWhile isIdentifierChar
  let named := if name.isEmpty then begun
    else begun.addSpan tree.size .identifier statement ⟨name, item.offset⟩
  refine node habove hplain .constSubStmt (by decide) (placeIn statement item)
    (String.ofList item.text) fun hnode ↦ ?_
  have hnamed : begun.GrowsScanned named := by
    simp only [named]
    split
    · exact refl begun
    · exact identifier hnode (by decide) statement _
  unfold SyntaxTree.addConstant
  dsimp only
  split
  · exact hnamed
  · exact hnamed.trans (addExpression (hnamed.kind?_eq hnode) (by decide) statement _)

theorem addVariable (item : Span) : tree.GrowsScanned (tree.addVariable parent statement item) := by
  refine node habove hplain .variableSubStmt (by decide) (placeIn statement item)
    (String.ofList item.text) fun hnode ↦ ?_
  unfold SyntaxTree.addVariable
  split
  · exact refl _
  · exact identifier hnode (by decide) statement _

theorem addParameter (item : Span) :
    tree.GrowsScanned (tree.addParameter parent statement item) := by
  refine node habove hplain .arg (by decide) (placeIn statement item) (String.ofList item.text)
    fun hnode ↦ ?_
  unfold SyntaxTree.addParameter
  split
  · exact refl _
  · exact identifier hnode (by decide) statement _

/-- Both sides of an assignment are scanned. -/
theorem addAssignment (assignment : Assignment) :
    tree.GrowsScanned (tree.addAssignment parent statement assignment) := by
  unfold SyntaxTree.addAssignment
  dsimp only
  split
  · next name _ =>
    have htarget := identifier habove hplain statement ⟨name, assignment.target.offset⟩
    exact htarget.trans (addExpression (htarget.kind?_eq habove) hplain statement _)
  · have htarget := addExpression habove hplain statement assignment.target
    exact htarget.trans (addExpression (htarget.kind?_eq habove) hplain statement _)

/-! ## Statements and members -/

omit statement in
/-- The expressions of a statement that is no header are scanned. -/
theorem addStatement {segment : Segment}
    (hshape : ∀ signature, shapeOf segment.text ≠ .procedureStart signature) :
    tree.GrowsScanned (tree.addStatement parent (shapeOf segment.text) segment) := by
  have hkind : statementKind (shapeOf segment.text) ≠ .expression := by
    intro heq
    have hstatement := NodeKind.isPlainStatement_statementKind hshape
    rw [heq] at hstatement
    cases hstatement
  refine node habove hplain _ hkind segment.selection (String.ofList segment.text) fun hnode ↦ ?_
  unfold SyntaxTree.addStatement
  generalize shapeOf segment.text = shape at hkind hnode ⊢
  dsimp only
  cases shape with
  | option | «attribute» | declare => exact refl _
  | blockStart _ name => exact identifier hnode hkind segment name
  | constants list =>
    exact addItems hnode
      (fun _ item hfurther ↦ addConstant hfurther hkind segment item) list
  | «variables» list =>
    exact addItems hnode
      (fun _ item hfurther ↦ addVariable hfurther hkind segment item) list
  | setAssignment assignment | letAssignment assignment =>
    exact addAssignment hnode hkind segment assignment
  | call expression => exact addExpression hnode hkind segment expression
  | procedureEnd | procedureStart | blockEnd | other =>
    exact addExpression hnode hkind segment ⟨segment.text, 0⟩

/-- A member is laid out with its block. -/
theorem addMember {signature : Signature} (hmember : signature.kind.isProcedure = true)
    (segment : Segment) : tree.GrowsScanned
      ((tree.addMember parent signature segment).addChild tree.size .block .unset "") := by
  have hkind : signature.kind ≠ .expression := by
    intro heq
    rw [heq] at hmember
    cases hmember
  refine node habove hplain _ hkind segment.selection (String.ofList segment.text) fun hnode ↦ ?_
  have hname := identifier hnode hkind segment signature.name
  have hparts : (tree.addChild parent signature.kind segment.selection
      (String.ofList segment.text)).GrowsScanned (tree.addMember parent signature segment) := by
    unfold SyntaxTree.addMember
    dsimp only
    split
    · exact hname
    · next list _ =>
      exact hname.trans (addItems (hname.kind?_eq hnode)
        (fun _ item hfurther ↦ addParameter hfurther hkind segment item) list)
  exact hparts.trans (addChild (hparts.kind?_eq hnode) hkind (by decide) .unset "")

end Below

end GrowsScanned

end Tree.SyntaxTree

/-! ## Reading -/

namespace Reading

open SyntaxTree (GrowsScanned)

theorem isScanned_start (component : String) (source : List Char) :
    (Reading.start component source).tree.IsScanned := by
  let root := SyntaxTree.ofRoot component (moduleSelection source)
  have hmodule : root.kind? 0 = some .module := rfl
  have hroot : root.IsScanned := fun id ↦ SyntaxTree.isScannedAt_of_kind? fun hkind ↦ by
    obtain rfl : id = 0 := Nat.lt_one_iff.1 (SyntaxTree.lt_size_of_kind? hkind)
    cases hmodule.symm.trans hkind
  have hdeclarations : root.GrowsScanned (root.addChild 0 .moduleDeclarations .unset "") :=
    .addChild hmodule (by decide) (by decide) _ _
  exact (hroot.grow hdeclarations).grow
    (.addChild (hdeclarations.kind?_eq hmodule) (by decide) (by decide) _ _)

/-- The words of expressions stay complete when a statement is read. -/
theorem preserves_isScanned : Preserves SyntaxTree.IsScanned where
  widen h _ _ _ _ selection := h.grow (.widen _ _ selection)
  member hheld h segment signature hshape := by
    have hmember := isProcedure_of_signature? (signature?_of_shapeOf hshape)
    exact h.grow (.addMember hheld.stands.body_kind (by decide) hmember segment)
  statement {reading segments} hheld h segment hshape := by
    change ((reading.statementParent segment.selection).1.addStatement
      (reading.statementParent segment.selection).2 (shapeOf segment.text) segment).IsScanned
    have habove := hheld.kind?_statementParent segment.selection
    have hplace : reading.tree.GrowsScanned (reading.statementParent segment.selection).1 := by
      unfold Reading.statementParent
      split
      · exact (GrowsScanned.widen _ _ _).trans (.widen _ _ _)
      · exact (GrowsScanned.addChild hheld.stands.declarations_kind (by decide) (by decide) _ _).trans
          (.widen _ _ _)
    refine (h.grow hplace).grow (.addStatement habove ?_ hshape)
    split <;> decide

end Reading

/-- Below every expression of a module stand the words that occur in its text. -/
theorem isScanned_readModule (component text : String) :
    (readModule component text).tree.IsScanned :=
  Reading.preserves_isScanned.readModule component text
    (Reading.isScanned_start component text.toList)

end VbaLint
