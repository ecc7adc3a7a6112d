import VbaLint.Proofs.Module.StatementFacts
import VbaLint.Proofs.Statement.AssignmentForm

/-!
# The words recorded for an assignment

Below the node of an assigning statement stand its two sides, and below them the words that occur in
them, with their places. A plain assigned name stands beside the sides. The words are those of the
statement as long as the sign does not lie in a string literal.
-/

namespace VbaLint

open Source Statement Text Tree

namespace Tree.SyntaxTree

variable {tree grown : SyntaxTree} {id node parent : Nat}

def identifiersBelow (tree : SyntaxTree) (id : Nat) : List (String × Selection) :=
  (tree.childrenOfKind id .identifier).filterMap fun child ↦
    (tree.node? child).map fun node ↦ (node.text, node.selection)

def expressionWords (tree : SyntaxTree) (id : Nat) : List (String × Selection) :=
  (tree.childrenOfKind id .expression).flatMap tree.identifiersBelow

def recorded (statement : Segment) (word : Span) : String × Selection :=
  (String.ofList word.text, placeIn statement word)

/-- The place of a stretch counts the characters before it. -/
theorem placeIn_of_splits {statement : Segment} {span : Span} {before behind : List Char}
    (h : span.Splits statement.text before behind) :
    placeIn statement span = .onLine statement.selection.startLine
      (statement.selection.startColumn + before.length) span.text.length := by
  have hupTo : takeBytes (span.offset + byteLength span.text) statement.text = before ++ span.text := by
    rw [h.offset_eq, ← byteLength_append, h.text_eq, takeBytes_append]
  rw [placeIn, h.takeBytes_eq, hupTo, List.length_append, Nat.add_sub_cancel_left]

theorem identifiersBelow_eq_bare? (tree : SyntaxTree) (id : Nat) :
    tree.identifiersBelow id = (tree.childrenOfKind id .identifier).filterMap fun child ↦
      (tree.bare? child).map fun node ↦ (node.text, node.selection) := by
  unfold identifiersBelow
  congr 1
  funext child
  rw [bare?, Option.map_map]
  rfl

theorem kind?_of_mem_childrenOfKind {kind : NodeKind} {child : Nat}
    (h : child ∈ tree.childrenOfKind id kind) :
    child ∈ tree.children id ∧ tree.kind? child = some kind := by
  obtain ⟨hchild, hkind⟩ := List.mem_filter.1 h
  exact ⟨hchild, eq_of_beq hkind⟩

/-- Identifiers stay below a node that takes no children. -/
theorem identifiersBelow_keep {takes : Nat → Prop} (h : Keeps takes tree grown)
    (hid : id < tree.size) (htakes : ¬ takes id)
    (hbare : ∀ child, tree.kind? child = some .identifier → grown.bare? child = tree.bare? child) :
    grown.identifiersBelow id = tree.identifiersBelow id := by
  rw [identifiersBelow_eq_bare?, identifiersBelow_eq_bare?, h.childrenOfKind_eq hid htakes]
  apply List.filterMap_congr
  intro child hchild
  rw [hbare child (kind?_of_mem_childrenOfKind hchild).2]

/-- The words of a side stay if neither the statement nor a side takes children. -/
theorem expressionWords_keep {takes : Nat → Prop} (h : Keeps takes tree grown)
    (hid : id < tree.size) (htakes : ¬ takes id)
    (hexpression : ∀ child, tree.kind? child = some .expression → ¬ takes child)
    (hbare : ∀ child, tree.kind? child = some .identifier → grown.bare? child = tree.bare? child) :
    grown.expressionWords id = tree.expressionWords id := by
  rw [expressionWords, expressionWords, h.childrenOfKind_eq hid htakes]
  apply List.flatMap_congr
  intro child hchild
  obtain ⟨hbelow, hkind⟩ := kind?_of_mem_childrenOfKind hchild
  exact identifiersBelow_keep h (lt_of_mem_children hbelow).2 (hexpression child hkind) hbare

@[simp]
theorem size_addSpan {kind : NodeKind} {statement : Segment} {span : Span} :
    (tree.addSpan parent kind statement span).size = tree.size + 1 := size_addChild

/-- Nodes are added below `node` and below new nodes alone. -/
structure AddsBelow (node : Nat) (tree grown : SyntaxTree) : Prop where
  keeps : Keeps (· = node) tree grown
  bare?_eq {id : Nat} : id < tree.size → grown.bare? id = tree.bare? id

namespace AddsBelow

theorem refl (node : Nat) (tree : SyntaxTree) : AddsBelow node tree tree :=
  ⟨.refl _ tree, fun _ ↦ rfl⟩

/-- A span added at the node or below what was added stays below the node. -/
theorem addSpan (h : AddsBelow node tree grown) (hparent : parent < grown.size)
    (hbelow : parent = node ∨ tree.size ≤ parent) (kind : NodeKind) (statement : Segment)
    (span : Span) : AddsBelow node tree (grown.addSpan parent kind statement span) := by
  refine ⟨h.keeps.addChild hparent (fun hlt ↦ ?_) kind _ _, fun hid ↦ ?_⟩
  · exact hbelow.resolve_right (Nat.not_le_of_lt hlt)
  · exact (bare?_addChild_of_lt (h.keeps.lt_size hid)).trans (h.bare?_eq hid)

/-- Several spans may be added below the node. -/
theorem foldl_addSpan (h : AddsBelow node tree grown) (hparent : parent < grown.size)
    (hbelow : parent = node ∨ tree.size ≤ parent) (kind : NodeKind) (statement : Segment)
    (spans : List Span) :
    AddsBelow node tree
      (spans.foldl (fun further span ↦ further.addSpan parent kind statement span) grown) := by
  induction spans generalizing grown with
  | nil => exact h
  | cons span spans ih =>
    refine ih (h.addSpan hparent hbelow kind statement span) ?_
    exact Nat.lt_of_lt_of_eq (Nat.lt_succ_of_lt hparent) size_addSpan.symm

end AddsBelow

variable (statement : Segment)

theorem identifiersBelow_addSpan (hnode : node < tree.size) (word : Span) :
    (tree.addSpan node .identifier statement word).identifiersBelow node =
      tree.identifiersBelow node ++ [recorded statement word] := by
  have hadds := (AddsBelow.refl node tree).addSpan hnode (.inl rfl) .identifier statement word
  rw [identifiersBelow_eq_bare?, identifiersBelow_eq_bare?, addSpan,
    childrenOfKind_addChild_of_lt hnode hnode, if_pos ⟨rfl, rfl⟩, List.filterMap_append]
  congr 1
  · apply List.filterMap_congr
    intro child hchild
    have hlt := (lt_of_mem_children (kind?_of_mem_childrenOfKind hchild).1).2
    exact congrArg (Option.map _) (hadds.bare?_eq hlt)
  · rw [List.filterMap_cons, bare?_addChild_self hnode]
    rfl

theorem identifiersBelow_foldl_addSpan (hnode : node < tree.size) (spans : List Span) :
    (spans.foldl (fun further span ↦ further.addSpan node .identifier statement span)
      tree).identifiersBelow node =
        tree.identifiersBelow node ++ spans.map (recorded statement) := by
  induction spans generalizing tree with
  | nil => exact (List.append_nil _).symm
  | cons span spans ih =>
    have hlt : node < (tree.addSpan node .identifier statement span).size := by
      rw [size_addSpan]
      exact Nat.lt_succ_of_lt hnode
    rw [List.foldl_cons, ih hlt, identifiersBelow_addSpan statement hnode, List.append_assoc]
    rfl

/-- An expression is a node with a node for each of its words below it. -/
theorem addExpression_eq_foldl (side : Span) :
    tree.addExpression parent statement side =
      ((occurrences side.text).map (Span.behind side.offset)).foldl
        (fun grown word ↦ grown.addSpan tree.size .identifier statement word)
        (tree.addSpan parent .expression statement side) := by
  rw [List.foldl_map]
  rfl

/-- An expression adds nodes below its parent only. -/
theorem addsBelow_addExpression (hparent : parent < tree.size) (side : Span) :
    AddsBelow parent tree (tree.addExpression parent statement side) := by
  rw [addExpression_eq_foldl]
  exact ((AddsBelow.refl parent tree).addSpan hparent (.inl rfl) .expression statement
    side).foldl_addSpan (by simp) (.inr (Nat.le_refl _)) .identifier statement _

/-- An expression comes behind those that stand below the node, with its words below it. -/
theorem expressionWords_addExpression (hparent : parent < tree.size) (side : Span) :
    (tree.addExpression parent statement side).expressionWords parent =
      tree.expressionWords parent ++
        ((occurrences side.text).map (Span.behind side.offset)).map (recorded statement) := by
  let begun := tree.addSpan parent .expression statement side
  let words := (occurrences side.text).map (Span.behind side.offset)
  have hwhole : tree.addExpression parent statement side =
      words.foldl (fun grown word ↦ grown.addSpan tree.size .identifier statement word) begun :=
    addExpression_eq_foldl statement side
  have hnew : tree.size < begun.size := by simp [begun]
  have hadds := addsBelow_addExpression statement hparent side
  have hchildren : (tree.addExpression parent statement side).childrenOfKind parent .expression =
      tree.childrenOfKind parent .expression ++ [tree.size] := by
    have hinner := (AddsBelow.refl tree.size begun).foldl_addSpan hnew (.inl rfl) .identifier
      statement words
    rw [hwhole, hinner.keeps.childrenOfKind_eq (by omega) (by omega)]
    exact (childrenOfKind_addChild_of_lt hparent hparent .expression).trans (by rw [if_pos ⟨rfl, rfl⟩])
  rw [expressionWords, hchildren, List.flatMap_append, List.flatMap_singleton]
  congr 1
  · apply List.flatMap_congr
    intro child hchild
    obtain ⟨hparentLt, hchildLt⟩ := lt_of_mem_children (kind?_of_mem_childrenOfKind hchild).1
    exact identifiersBelow_keep hadds.keeps hchildLt (Nat.ne_of_gt hparentLt)
      fun other hother ↦ hadds.bare?_eq (lt_size_of_kind? hother)
  · have hnone : begun.identifiersBelow tree.size = [] := by
      change (begun.childrenOfKind tree.size .identifier).filterMap _ = []
      rw [show begun.childrenOfKind tree.size .identifier = [] from childrenOfKind_addChild_self,
        List.filterMap_nil]
    rw [hwhole, identifiersBelow_foldl_addSpan statement hnew, hnone, List.nil_append]

theorem expressionWords_addSpan (hparent : parent < tree.size) {kind : NodeKind}
    (hkind : kind ≠ .expression) (span : Span) :
    (tree.addSpan parent kind statement span).expressionWords parent =
      tree.expressionWords parent := by
  have hadds := (AddsBelow.refl parent tree).addSpan hparent (.inl rfl) kind statement span
  have hchildren : (tree.addSpan parent kind statement span).childrenOfKind parent .expression =
      tree.childrenOfKind parent .expression := by
    rw [addSpan, childrenOfKind_addChild_of_lt hparent hparent, if_neg (by simp [hkind]),
      List.append_nil]
  rw [expressionWords, hchildren]
  apply List.flatMap_congr
  intro child hchild
  obtain ⟨hparentLt, hchildLt⟩ := lt_of_mem_children (kind?_of_mem_childrenOfKind hchild).1
  exact identifiersBelow_keep hadds.keeps hchildLt (Nat.ne_of_gt hparentLt)
    fun other hother ↦ hadds.bare?_eq (lt_size_of_kind? hother)

/-- Below the node of an assignment the words of the assignment are recorded. -/
theorem expressionWords_addAssignment (hparent : parent < tree.size) (assignment : Assignment) :
    (tree.addAssignment parent statement assignment).expressionWords parent =
      tree.expressionWords parent ++ assignment.words.map (recorded statement) := by
  unfold addAssignment
  rw [Assignment.words, List.map_append, Assignment.targetWords, Assignment.hasPlainTarget,
    ← List.append_assoc]
  cases hplain : plainName? assignment.target.text with
  | some name =>
    have hlt : parent < (tree.addSpan parent .identifier statement
        ⟨name, assignment.target.offset⟩).size := by
      rw [size_addSpan]
      exact Nat.lt_succ_of_lt hparent
    dsimp only
    rw [expressionWords_addExpression statement hlt,
      expressionWords_addSpan statement hparent (by decide)]
    simp [Assignment.valueWords]
  | none =>
    dsimp only
    have hlt := (addsBelow_addExpression statement hparent assignment.target).keeps.lt_size hparent
    rw [expressionWords_addExpression statement hlt, expressionWords_addExpression statement hparent]
    simp [Assignment.valueWords]

/-- The node stands for an assignment with the given text: the words of its sides are recorded below it. -/
def IsAssignment (tree : SyntaxTree) (id : Nat) (text : List Char) (assignment : Assignment) : Prop :=
  ∃ node, tree.bare? id = some node ∧ (node.kind = .setStmt ∨ node.kind = .letStmt) ∧
    tree.expressionWords id = assignment.words.map (recorded ⟨text, node.selection⟩)

end Tree.SyntaxTree

namespace Reading

/-- An assignment stands in the tree as one of two kinds of nodes. -/
theorem statementKind_of_assignment? {shape : Shape} {assignment : Assignment}
    (h : shape.assignment? = some assignment) :
    SyntaxTree.statementKind shape = .setStmt ∨ SyntaxTree.statementKind shape = .letStmt := by
  cases shape <;> first | exact .inl rfl | exact .inr rfl | cases h

/-- The words recorded for an assignment stay. -/
theorem lasts_isAssignment : Lasts fun tree id ↦ ∀ text assignment,
    tree.text? id = some (String.ofList text) → (shapeOf text).assignment? = some assignment →
      tree.IsAssignment id text assignment where
  grow {tree grown id} h hgrows hstatement text assignment htext hshape := by
    have hlt := SyntaxTree.lt_size_of_isStatement hstatement
    rw [hgrows.keeps.text?_eq hlt] at htext
    obtain ⟨node, hnode, hkind, hwords⟩ := h text assignment htext hshape
    have hknown : tree.kind? id = some node.kind := by rw [SyntaxTree.kind?_eq_bare?, hnode]; rfl
    have hfixed : node.kind.isWidened = false ∧ node.kind.takesChildren = false := by
      rcases hkind with hkind | hkind <;> rw [hkind] <;> decide
    refine ⟨node, (hgrows.bare?_eq hknown hfixed.1).trans hnode, hkind, ?_⟩
    rw [SyntaxTree.expressionWords_keep hgrows.keeps hlt, hwords]
    · rw [hknown, Option.any_some, hfixed.2]
      exact Bool.false_ne_true
    · intro child hchild
      rw [hchild]
      decide
    · exact fun child hchild ↦ hgrows.bare?_eq hchild rfl
  member {tree parent} hparent segment signature hshape text assignment htext hother := by
    rw [SyntaxTree.text?_member hparent hshape] at htext
    rw [← String.ofList_inj.1 (Option.some.inj htext), hshape] at hother
    cases hother
  statement {tree parent} hparent segment hshape text assignment htext hother := by
    rw [SyntaxTree.text?_statement hparent hshape] at htext
    obtain rfl : segment.text = text := String.ofList_inj.1 (Option.some.inj htext)
    have hlaid : tree.addStatement parent (shapeOf segment.text) segment =
        (tree.addChild parent (SyntaxTree.statementKind (shapeOf segment.text)) segment.selection
          (String.ofList segment.text)).addAssignment tree.size segment assignment := by
      unfold SyntaxTree.addStatement
      cases hcase : shapeOf segment.text <;> rw [hcase] at hother <;> cases hother <;> rfl
    refine ⟨_, SyntaxTree.bare?_statement hparent hshape, statementKind_of_assignment? hother, ?_⟩
    rw [hlaid, SyntaxTree.expressionWords_addAssignment _ (by simp)]
    have hnone : (tree.addChild parent (SyntaxTree.statementKind (shapeOf segment.text))
        segment.selection (String.ofList segment.text)).expressionWords tree.size = [] := by
      rw [SyntaxTree.expressionWords, SyntaxTree.childrenOfKind_addChild_self, List.flatMap_nil]
    rw [hnone, List.nil_append]

end Reading

/-- Every assigning statement is cut at a sign into a target and a value. If the sign does not lie in a
string literal, then the words of the two sides are those of the statement from the target on, behind it
if it is a plain name. If moreover the keyword has no long s and a plain name has no marks, they are all
words of the statement but for the one that begins where a plain target does. And below the expressions
of the node of every such statement of a module, just these words are recorded, with their places. -/
theorem assignments_record_their_words (text : List Char) (component source : String) :
    (∀ assignment, (shapeOf text).assignment? = some assignment →
      ∃ lead gap behind, assignment.IsCut text lead gap behind ∧
        (¬ EndsInString (lead ++ assignment.target.text ++ gap) →
          (assignment.words = (occurrences text).filter fun word ↦
            assignment.target.offset +
              (if assignment.hasPlainTarget then byteLength assignment.target.text else 0) ≤
                word.offset) ∧
          ('ſ' ∉ lead → (∀ name, plainName? assignment.target.text = some name →
            ∀ c ∈ name, isIdentifierChar c = true) →
              assignment.words = (occurrences text).filter fun word ↦
                !(assignment.hasPlainTarget && word.offset == assignment.target.offset)))) ∧
    let tree := (readModule component source).tree
    ∀ id ∈ tree.statementNodes, tree.text? id = some (String.ofList text) →
      ∀ assignment, (shapeOf text).assignment? = some assignment →
        ∃ node, tree.node? id = some node ∧
          tree.expressionWords id =
            assignment.words.map (SyntaxTree.recorded ⟨text, node.selection⟩) := by
  refine ⟨fun assignment hshape ↦ ?_, ?_⟩
  · obtain ⟨lead, gap, behind, hcut⟩ := exists_isCut_of_shapeOf hshape
    refine ⟨lead, gap, behind, hcut, fun hsign ↦ ?_⟩
    have hclosed := mt hcut.endsInString_iff.2 hsign
    exact ⟨hcut.words_eq_filter hclosed, hcut.words_eq_without_target hclosed⟩
  · intro tree id hid htext assignment hshape
    obtain ⟨bare, hbare, -, hwords⟩ :=
      Reading.lasts_isAssignment.readModule component source hid text assignment htext hshape
    obtain ⟨node, hnode, rfl⟩ := Option.map_eq_some_iff.1 hbare
    exact ⟨node, hnode, hwords⟩

/-- The first equals sign is taken for the sign though it lies in a literal. The name behind it is
recorded for a word, and the assigned value is not. -/
theorem sign_in_literal_moves_words :
    let text := "Set d(\"a=b\") = x".toList
    let assignment : Assignment := ⟨⟨"d(\"a".toList, 4⟩, ⟨"b\") = x".toList, 9⟩⟩
    shapeOf text = .setAssignment assignment ∧ EndsInString "Set d(\"a".toList ∧
      assignment.hasPlainTarget = false ∧
      assignment.words = [⟨['d'], 4⟩, ⟨['b'], 9⟩] ∧
      occurrences text = [⟨['d'], 4⟩, ⟨['x'], 15⟩] ∧
      (readModule "M" (String.ofList text)).tree.statementNodes = [4] ∧
      (readModule "M" (String.ofList text)).tree.expressionWords 4 =
        [("d", ⟨1, 5, 1, 5⟩), ("b", ⟨1, 10, 1, 10⟩)] := by
  decide +kernel

end VbaLint
