import VbaLint.Proofs.ListLemmas
import VbaLint.Proofs.Module.IdentifierRanges
import VbaLint.Proofs.Source.Written
import VbaLint.Proofs.Tree.Visits

/-!
# Nodes written in the text

A node of a statement that stands on one line, of an item of variables or of an identifier is written in the
text of the module as its range says.
-/

namespace VbaLint

open Source Statement Text Tree

namespace Tree.Node

def piece (node : Node) : Segment := ⟨node.text.toList, node.selection⟩

/-- The node stands for a stretch of a longer piece, at its place in the piece. -/
def IsStretch (node : Node) (whole : Segment) : Prop :=
  ∃ (span : Span) (front rest : List Char), span.Splits whole.text front rest ∧ span.text ≠ [] ∧
    node.text = String.ofList span.text ∧ node.selection = SyntaxTree.placeIn whole span

/-- A stretch of a piece that is written somewhere is written there. -/
theorem IsStretch.exists_isWrittenFrom {node : Node} {whole : Segment} (h : node.IsStretch whole)
    {lines : List (List Char)} {p q : Place} (hwhole : whole.IsWrittenFrom lines p q) :
    ∃ p' q', node.piece.IsWrittenFrom lines p' q' := by
  obtain ⟨span, front, rest, hsplits, hne, htext, hselection⟩ := h
  have hpiece : node.piece = ⟨span.text, .onLine whole.selection.startLine
      (whole.selection.startColumn + front.length) span.text.length⟩ := by
    rw [piece, htext, hselection, String.toList_ofList, SyntaxTree.placeIn_of_splits hsplits]
  rw [hpiece]
  exact hwhole.stretch hsplits.text_eq hne

end Tree.Node

namespace Tree.SyntaxTree

variable {tree grown : SyntaxTree} {id parent : Nat} {owner : Node}

/-- The node stands for an item of variables in a longer piece. -/
def IsItem (tree : SyntaxTree) (whole : Segment) (id : Nat) : Prop :=
  ∃ node, tree.bare? id = some node ∧ node.kind = .variableSubStmt ∧ node.IsStretch whole

/-- All children of the node stand for items of variables in its text. -/
def HoldsItems (tree : SyntaxTree) (id : Nat) (owner : Node) : Prop :=
  tree.bare? id = some owner ∧ ∀ child ∈ tree.children id, tree.IsItem owner.piece child

/-- An item is told by its node without the children. -/
theorem IsItem.of_bare?_eq {whole : Segment} (h : tree.IsItem whole id)
    (heq : grown.bare? id = tree.bare? id) : grown.IsItem whole id := by
  obtain ⟨node, hnode, hfacts⟩ := h
  exact ⟨node, heq.trans hnode, hfacts⟩

namespace HoldsItems

theorem lt_size (h : tree.HoldsItems id owner) : id < tree.size := by
  rw [← isSome_bare?_iff, h.1, Option.isSome_some]

/-- One node more is added, which stands for an item if it is put below the node. -/
theorem addChild (h : tree.HoldsItems id owner) (hparent : parent < tree.size) {kind : NodeKind}
    {selection : Selection} {text : String}
    (hitem : parent = id → (tree.addChild parent kind selection text).IsItem owner.piece tree.size) :
    (tree.addChild parent kind selection text).HoldsItems id owner := by
  refine ⟨(bare?_addChild_of_lt h.lt_size).trans h.1, fun child hchild ↦ ?_⟩
  rw [children_addChild_of_lt hparent h.lt_size] at hchild
  rcases List.mem_append.1 hchild with hold | hnew
  · exact (h.2 child hold).of_bare?_eq (bare?_addChild_of_lt (lt_of_mem_children hold).2)
  · obtain ⟨hsame, heq⟩ := List.mem_ite_nil_right.1 hnew
    rw [List.mem_singleton.1 heq]
    exact hitem hsame

/-- A variable adds an item that is written in its statement. -/
theorem addVariable (h : tree.HoldsItems id owner) {item : Span} {front rest : List Char}
    (hsplits : item.Splits owner.text.toList front rest) (hne : item.text ≠ []) :
    (tree.addVariable id owner.piece item).HoldsItems id owner := by
  have hadded : (tree.addSpan id .variableSubStmt owner.piece item).HoldsItems id owner :=
    h.addChild h.lt_size fun _ ↦
      ⟨_, bare?_addChild_self h.lt_size, rfl, item, front, rest, hsplits, hne, rfl, rfl⟩
  unfold SyntaxTree.addVariable
  dsimp only
  split
  · exact hadded
  · refine hadded.addChild ?_ fun heq ↦ absurd heq.symm (Nat.ne_of_lt h.lt_size)
    rw [size_addSpan]
    exact Nat.lt_succ_self _

/-- The items of a list in the text of the node are put below it. -/
theorem addItems (h : tree.HoldsItems id owner) {list : Span} (hlist : IsApart list owner.text.toList) :
    (tree.addItems (fun grown item ↦ grown.addVariable id owner.piece item) list).HoldsItems id owner := by
  have hitems : ∀ item ∈ items list.text, item.text ≠ [] ∧
      ∃ front rest, (item.behind list.offset).Splits owner.text.toList front rest := by
    intro item hitem
    obtain ⟨piece, -, hpiece, hne⟩ := exists_piece_of_mem_locatePieces (items_eq list.text ▸ hitem)
    obtain ⟨front, rest, hsplits, -⟩ := hlist.inside (isApart_of_mem_items hitem)
    exact ⟨by rwa [hpiece], front, rest, hsplits⟩
  unfold SyntaxTree.addItems
  generalize items list.text = spans at hitems
  induction spans generalizing tree with
  | nil => exact h
  | cons span spans ih =>
    obtain ⟨hne, front, rest, hsplits⟩ := hitems span List.mem_cons_self
    exact ih (h.addVariable hsplits hne) fun later hlater ↦ hitems later (List.mem_cons_of_mem span hlater)

end HoldsItems

end Tree.SyntaxTree

namespace Statement

theorem variableList?_of_shapeOf {text : List Char} {list : Span} (h : shapeOf text = .variables list) :
    variableList? text = some list := by
  unfold shapeOf at h
  repeat' split at h
  all_goals cases h
  assumption

theorem exists_variables_of_nodeKind {text : List Char}
    (h : (shapeOf text).nodeKind = .variableStmt) : ∃ list, shapeOf text = .variables list := by
  cases hshape : shapeOf text with
  | «variables» list => exact ⟨list, rfl⟩
  | option kind =>
    rw [hshape] at h
    rcases optionKind?_cases (optionKind?_of_shapeOf hshape) with rfl | rfl | rfl | rfl <;> cases h
  | blockStart kind name =>
    rw [hshape] at h
    rcases blockStart?_cases (blockStart?_of_shapeOf hshape) with rfl | rfl <;> cases h
  | procedureStart signature =>
    rw [hshape] at h
    have hmember := isProcedure_of_signature? (signature?_of_shapeOf hshape)
    rw [show signature.kind = .variableStmt from h] at hmember
    cases hmember
  | _ =>
    rw [hshape] at h
    cases h

end Statement

namespace Reading

/-- Below the node of a statement of variables stand its items. -/
theorem lasts_holdsItems : Lasts fun tree id ↦ tree.kind? id = some .variableStmt →
    ∃ owner, tree.HoldsItems id owner where
  grow {tree grown id} h hgrows hstatement hkind := by
    have hlt := SyntaxTree.lt_size_of_isStatement hstatement
    rw [hgrows.keeps.kind?_eq hlt] at hkind
    obtain ⟨owner, howner, hitems⟩ := h hkind
    refine ⟨owner, (hgrows.bare?_eq hkind rfl).trans howner, fun child hchild ↦ ?_⟩
    rw [hgrows.keeps.children_eq hlt (by rw [hkind]; decide)] at hchild
    obtain ⟨node, hnode, hpart, -⟩ := hitems child hchild
    have hknown : tree.kind? child = some .variableSubStmt := by
      rw [SyntaxTree.kind?_eq_bare?, hnode, Option.map_some, hpart]
    exact (hitems child hchild).of_bare?_eq (hgrows.bare?_eq hknown rfl)
  member {tree parent} hparent segment signature hshape hkind := by
    have hmember := isProcedure_of_signature? (signature?_of_shapeOf hshape)
    have hsize : tree.size <
        (tree.addChild parent signature.kind segment.selection (String.ofList segment.text)).size := by
      rw [SyntaxTree.size_addChild]
      exact Nat.lt_succ_self _
    have hbare := (SyntaxTree.addsParts_member hparent hshape).bare?_eq hsize
    rw [SyntaxTree.kind?_eq_bare?, hbare, SyntaxTree.bare?_addChild_self hparent] at hkind
    rw [show signature.kind = .variableStmt from Option.some.inj hkind] at hmember
    cases hmember
  statement {tree parent} hparent segment hshape hkind := by
    have hbare := SyntaxTree.bare?_statement hparent hshape
    rw [SyntaxTree.kind?_eq_bare?, hbare, Option.map_some, ← Shape.nodeKind_eq hshape] at hkind
    obtain ⟨list, hlist⟩ := exists_variables_of_nodeKind (Option.some.inj hkind)
    rw [hlist]
    have hbegun : (tree.addChild parent .variableStmt segment.selection
        (String.ofList segment.text)).HoldsItems tree.size
          ⟨.variableStmt, segment.selection, String.ofList segment.text, some parent, #[]⟩ := by
      refine ⟨SyntaxTree.bare?_addChild_self hparent, fun child hchild ↦ ?_⟩
      rw [SyntaxTree.children_addChild_self] at hchild
      cases hchild
    have hpiece : segment = Node.piece
        ⟨.variableStmt, segment.selection, String.ofList segment.text, some parent, #[]⟩ := by
      rw [Node.piece, String.toList_ofList]
    have hapart : IsApart list (String.ofList segment.text).toList := by
      rw [String.toList_ofList]
      exact isApart_of_variableList? (variableList?_of_shapeOf hlist)
    have hall := hbegun.addItems hapart
    rw [← hpiece] at hall
    exact ⟨_, hall⟩

end Reading

namespace Tree

theorem NodeKind.holdsStatements_of_mayHold {above kind : NodeKind} (hplain : kind.isPlainStatement = true)
    (h : above.mayHold kind = true) : above.holdsStatements = true := by
  cases kind <;> first
    | exact absurd hplain Bool.false_ne_true
    | cases above <;> first | rfl | exact absurd h Bool.false_ne_true

theorem NodeKind.eq_variableStmt_of_mayHold {above : NodeKind}
    (h : above.mayHold .variableSubStmt = true) : above = .variableStmt := by
  cases above <;> first | rfl | exact absurd h Bool.false_ne_true

namespace SyntaxTree.Obeys

variable {tree : SyntaxTree} (h : tree.Obeys) {id : Nat} {kind : NodeKind}
include h

theorem ne_zero_of_kind? (hkind : tree.kind? id = some kind) (hne : kind ≠ .module) : id ≠ 0 := by
  rintro rfl
  exact hne (Option.some.inj (hkind.symm.trans h.root))

/-- In a tree that obeys the grammar the kind of a statement tells that the node stands for one. -/
theorem isStatement (hkind : tree.kind? id = some kind) (hplain : kind.isPlainStatement = true) :
    tree.isStatement id = true := by
  have hroot : id ≠ 0 := h.ne_zero_of_kind? hkind fun heq ↦ by
    rw [heq] at hplain
    cases hplain
  obtain ⟨parent, above, hparent, habove, hholds⟩ := h.exists_above hkind hroot
  rw [SyntaxTree.isStatement, hparent, Option.bind_some, habove, Option.any_some]
  exact NodeKind.holdsStatements_of_mayHold hplain hholds

end SyntaxTree.Obeys

/-- The nodes of whole statements on one line, of items of variables and of identifiers. -/
def NodeKind.isWritten (kind : NodeKind) : Bool :=
  kind.isPlainStatement && !kind.spansLines || kind == variableSubStmt || kind == identifier

end Tree

section

variable {component text : String} {id : Nat} {node : Node}
  (hnode : (readModule component text).tree.node? id = some node)
include hnode

/-- The node of a statement that stays on its line is a statement of the text. -/
theorem piece_mem_statementsOf (hplain : node.kind.isPlainStatement = true)
    (hlines : node.kind.spansLines = false) : node.piece ∈ statementsOf text.toList := by
  have hkind : (readModule component text).tree.kind? id = some node.kind := by
    rw [SyntaxTree.kind?, hnode, Option.map_some]
  have hstatement := (obeys_readModule component text).isStatement hkind hplain
  have hheld := (Reading.holds_start component text.toList).foldl_item (lineItems text.toList)
  obtain ⟨statement, hmem, known, hknown, -, htext, hplace⟩ := exists_of_mem_left hheld.renders
    (SyntaxTree.mem_statementNodes_iff_isStatement.2 hstatement)
  cases hnode.symm.trans hknown
  have hpiece : node.piece = statement := by
    rw [hlines] at hplace
    rw [Node.piece, htext, String.toList_ofList, hplace.resolve_left Bool.false_ne_true]
  rw [hpiece]
  exact (Openings.start.kept_sublist _).mem hmem

/-- An identifier is a stretch of a statement of the text. -/
theorem exists_isStretch_of_identifier (hkind : node.kind = .identifier) :
    ∃ statement ∈ statementsOf text.toList, node.IsStretch statement := by
  have hmem := SyntaxTree.mem_identifiers hnode hkind
  rw [namesAll_readModule component text] at hmem
  obtain ⟨⟨owner, statement⟩, hpair, hmem⟩ := List.mem_flatMap.1 hmem
  obtain ⟨_, hreport, heq⟩ := List.mem_map.1 hmem
  obtain ⟨naming, hnaming, rfl⟩ := List.mem_map.1 hreport
  obtain ⟨-, htext, hselection⟩ : some owner = _ ∧ String.ofList naming.reported.text = node.text ∧
      SyntaxTree.placeIn statement naming.reported = node.selection := by
    simpa [SyntaxTree.recorded] using heq
  have hfound := isFound_of_mem_namingsOf hnaming
  obtain ⟨front, rest, hsplits⟩ := hfound.exists_splits_reported
  exact ⟨statement, (Openings.start.kept_sublist _).mem (List.of_mem_zip hpair).2, naming.reported, front,
    rest, hsplits, hfound.ne_nil, htext.symm, hselection.symm⟩

/-- An item of variables is a stretch of a statement of the text. -/
theorem exists_isStretch_of_variable (hkind : node.kind = .variableSubStmt) :
    ∃ statement ∈ statementsOf text.toList, node.IsStretch statement := by
  have hobeys := obeys_readModule component text
  have hknown : (readModule component text).tree.kind? id = some .variableSubStmt := by
    rw [SyntaxTree.kind?, hnode, Option.map_some, hkind]
  obtain ⟨parent, above, hparent, habove, hholds⟩ :=
    hobeys.exists_above hknown (hobeys.ne_zero_of_kind? hknown (by decide))
  cases NodeKind.eq_variableStmt_of_mayHold hholds
  obtain ⟨bare, howner, hitems⟩ := Reading.lasts_holdsItems.readModule component text
    (SyntaxTree.mem_statementNodes_iff_isStatement.2 (hobeys.isStatement habove rfl)) habove
  obtain ⟨owner, hup, rfl⟩ := Option.map_eq_some_iff.1 howner
  obtain ⟨part, hpart, -, hstretch⟩ := hitems id (SyntaxTree.mem_children.2 hparent)
  rw [SyntaxTree.bare?, hnode] at hpart
  cases hpart
  have hkind : owner.kind = .variableStmt := by
    rw [SyntaxTree.kind?, hup] at habove
    exact Option.some.inj habove
  exact ⟨owner.piece, piece_mem_statementsOf hup (by rw [hkind]; rfl) (by rw [hkind]; rfl), hstretch⟩

end

/-- A node that stands for a whole statement on one line, for an item of variables or for an identifier is
written in the text of its module as its range says. -/
theorem exists_isWrittenFrom_piece (component text : String) {id : Nat} {node : Node}
    (hnode : (readModule component text).tree.node? id = some node) (hkind : node.kind.isWritten = true) :
    ∃ p q, node.piece.IsWrittenFrom (physicalLines text.toList) p q := by
  rw [NodeKind.isWritten, Bool.or_eq_true, Bool.or_eq_true, Bool.and_eq_true, Bool.not_eq_true',
    beq_iff_eq, beq_iff_eq] at hkind
  have hstretch {node : Node} (h : ∃ statement ∈ statementsOf text.toList, node.IsStretch statement) :
      ∃ p q, node.piece.IsWrittenFrom (physicalLines text.toList) p q := by
    obtain ⟨statement, hstatement, hstretch⟩ := h
    obtain ⟨p, q, hwritten⟩ := exists_isWrittenFrom_of_mem_statementsOf hstatement
    exact hstretch.exists_isWrittenFrom hwritten
  rcases hkind with (⟨hplain, hlines⟩ | hvariable) | hidentifier
  · exact exists_isWrittenFrom_of_mem_statementsOf (piece_mem_statementsOf hnode hplain hlines)
  · exact hstretch (exists_isStretch_of_variable hnode hvariable)
  · exact hstretch (exists_isStretch_of_identifier hnode hidentifier)

end VbaLint
