import VbaLint.Proofs.Module.AssignmentNodes
import VbaLint.Proofs.Module.TreeGrammar

/-!
# The parts directly below a node

Below the node of an assignment stand its target, as a name or as an expression, and its value. Below
every expression stand the words that occur in its text.
-/

namespace VbaLint

open Source Statement Text Tree

/-! ## Parts -/

namespace Tree.SyntaxTree

variable {tree grown : SyntaxTree} {id node parent : Nat}

def part? (tree : SyntaxTree) (id : Nat) : Option (NodeKind × String) :=
  (tree.node? id).map fun node ↦ (node.kind, node.text)

/-- The kinds and texts of the children of a node. -/
def partsBelow (tree : SyntaxTree) (id : Nat) : List (NodeKind × String) :=
  (tree.children id).filterMap tree.part?

theorem part?_eq_bare? (tree : SyntaxTree) (id : Nat) :
    tree.part? id = (tree.bare? id).map fun node ↦ (node.kind, node.text) := by
  rw [part?, bare?, Option.map_map]
  rfl

theorem part?_eq_some_iff {kind : NodeKind} {text : String} : tree.part? id = some (kind, text) ↔
    tree.kind? id = some kind ∧ tree.text? id = some text := by
  rw [part?, kind?, text?]
  cases tree.node? id <;> simp

/-- All children of a node are parts of it. -/
theorem map_part?_children (tree : SyntaxTree) (id : Nat) :
    (tree.children id).map tree.part? = (tree.partsBelow id).map some := by
  have hknown : ∀ child ∈ tree.children id, ∃ part, tree.part? child = some part := by
    intro child hchild
    have hlt := (lt_of_mem_children hchild).2
    have hnode : tree.node? child = some tree.nodes[child] := Array.getElem?_eq_getElem hlt
    exact ⟨_, by rw [part?, hnode, Option.map_some]⟩
  unfold partsBelow
  generalize tree.children id = nodes at hknown
  induction nodes with
  | nil => rfl
  | cons child rest ih =>
    obtain ⟨part, hpart⟩ := hknown child List.mem_cons_self
    have hrest := ih fun other hother ↦ hknown other (List.mem_cons_of_mem child hother)
    rw [List.map_cons, List.filterMap_cons, hpart, List.map_cons, hrest]

/-- The children of one kind have the texts of the parts of this kind. -/
theorem map_text?_childrenOfKind (tree : SyntaxTree) (id : Nat) (kind : NodeKind) :
    (tree.childrenOfKind id kind).map tree.text? =
      ((tree.partsBelow id).filter (·.1 == kind)).map (some ·.2) := by
  have hparts := tree.map_part?_children id
  unfold childrenOfKind
  generalize tree.children id = nodes, tree.partsBelow id = parts at hparts
  induction nodes generalizing parts with
  | nil => cases parts <;> first | rfl | cases hparts
  | cons child rest ih =>
    obtain ⟨part, parts, rfl, hpart, hrest⟩ := List.map_eq_cons_iff.1 hparts.symm
    obtain ⟨hkind, htext⟩ := part?_eq_some_iff.1 hpart.symm
    rw [List.filter_cons, List.filter_cons, hkind]
    by_cases hsame : part.1 = kind
    · simpa [hsame, htext] using ih parts hrest.symm
    · simpa [hsame] using ih parts hrest.symm

section AddChild

variable {kind : NodeKind} {selection : Selection} {text : String}

theorem partsBelow_addChild_of_lt (hparent : parent < tree.size) (hid : id < tree.size) :
    (tree.addChild parent kind selection text).partsBelow id =
      tree.partsBelow id ++ if parent = id then [(kind, text)] else [] := by
  have hold : (tree.children id).filterMap (tree.addChild parent kind selection text).part? =
      tree.partsBelow id := by
    apply List.filterMap_congr
    intro child hchild
    rw [part?_eq_bare?, part?_eq_bare?, bare?_addChild_of_lt (lt_of_mem_children hchild).2]
  rw [partsBelow, children_addChild_of_lt hparent hid, List.filterMap_append, hold]
  split
  · rw [List.filterMap_cons, part?_eq_bare?, bare?_addChild_self hparent]
    rfl
  · rfl

theorem partsBelow_addChild_self :
    (tree.addChild parent kind selection text).partsBelow tree.size = [] := by
  rw [partsBelow, children_addChild_self, List.filterMap_nil]

theorem part?_addChild_self (hparent : parent < tree.size) :
    (tree.addChild parent kind selection text).part? tree.size = some (kind, text) := by
  rw [part?_eq_bare?, bare?_addChild_self hparent]
  rfl

end AddChild

section Keeps

variable {takes : Nat → Prop} (h : Keeps takes tree grown)
include h

theorem Keeps.part?_eq (hid : id < tree.size) : grown.part? id = tree.part? id := by
  have hnode : tree.node? id = some tree.nodes[id] := Array.getElem?_eq_getElem hid
  obtain ⟨later, _, hlater, hbecomes, -⟩ := h id _ hnode
  rw [part?, part?, hlater, hnode, Option.map_some, Option.map_some, hbecomes.kind_eq,
    hbecomes.text_eq]

/-- A node that takes no children keeps its parts. -/
theorem Keeps.partsBelow_eq (hid : id < tree.size) (htakes : ¬ takes id) :
    grown.partsBelow id = tree.partsBelow id := by
  rw [partsBelow, partsBelow, h.children_eq hid htakes]
  apply List.filterMap_congr
  intro child hchild
  exact h.part?_eq (lt_of_mem_children hchild).2

end Keeps

/-! ## Words of expressions -/

/-- The words that occur in the text of an expression, as they stand below it. -/
def wordParts (text : List Char) : List (NodeKind × String) :=
  (occurrences text).map fun word ↦ (.identifier, String.ofList word.text)

variable (statement : Segment)

theorem partsBelow_foldl_addSpan (hnode : node < tree.size) (words : List Span) :
    (words.foldl (fun further word ↦ further.addSpan node .identifier statement word)
      tree).partsBelow node =
        tree.partsBelow node ++ words.map fun word ↦ (.identifier, String.ofList word.text) := by
  induction words generalizing tree with
  | nil => exact (List.append_nil _).symm
  | cons word words ih =>
    have hlt : node < (tree.addSpan node .identifier statement word).size := by
      rw [size_addSpan]
      exact Nat.lt_succ_of_lt hnode
    rw [List.foldl_cons, ih hlt, addSpan, partsBelow_addChild_of_lt hnode hnode, if_pos rfl,
      List.append_assoc]
    rfl

/-- An expression comes behind the parts of its parent, with its words below it. -/
theorem partsBelow_addExpression (hparent : parent < tree.size) (side : Span) :
    (tree.addExpression parent statement side).partsBelow parent =
        tree.partsBelow parent ++ [(.expression, String.ofList side.text)] ∧
      (tree.addExpression parent statement side).partsBelow tree.size = wordParts side.text := by
  let begun := tree.addSpan parent .expression statement side
  have hnew : tree.size < begun.size := by simp [begun]
  have hinner := (AddsBelow.refl tree.size begun).foldl_addSpan hnew (.inl rfl) .identifier
    statement ((occurrences side.text).map (Span.behind side.offset))
  have hbegun : begun.partsBelow parent =
      tree.partsBelow parent ++ [(.expression, String.ofList side.text)] :=
    (partsBelow_addChild_of_lt hparent hparent).trans (by rw [if_pos rfl])
  have hnone : begun.partsBelow tree.size = [] := partsBelow_addChild_self
  rw [addExpression_eq_foldl]
  constructor
  · rw [← hbegun]
    exact hinner.keeps.partsBelow_eq (Nat.lt_trans hparent hnew) (Nat.ne_of_lt hparent)
  · rw [partsBelow_foldl_addSpan statement hnew, hnone, List.nil_append, wordParts, List.map_map]
    rfl

/-! ## Sides of assignments -/

/-- The sides of an assignment as they stand below its node. A plain assigned name is no expression. -/
def sideParts (assignment : Assignment) : List (NodeKind × String) :=
  [match plainName? assignment.target.text with
    | some name => (.identifier, String.ofList name)
    | none => (.expression, String.ofList assignment.target.text),
    (.expression, String.ofList assignment.value.text)]

theorem partsBelow_addAssignment (hparent : parent < tree.size) (assignment : Assignment) :
    (tree.addAssignment parent statement assignment).partsBelow parent =
      tree.partsBelow parent ++ sideParts assignment := by
  unfold addAssignment sideParts
  cases plainName? assignment.target.text with
  | some name =>
    have hlt : parent < (tree.addSpan parent .identifier statement
        ⟨name, assignment.target.offset⟩).size := by
      rw [size_addSpan]
      exact Nat.lt_succ_of_lt hparent
    dsimp only
    rw [(partsBelow_addExpression statement hlt assignment.value).1, addSpan,
      partsBelow_addChild_of_lt hparent hparent, if_pos rfl, List.append_assoc]
    rfl
  | none =>
    have hlt := (addsBelow_addExpression statement hparent assignment.target).keeps.lt_size hparent
    dsimp only
    rw [(partsBelow_addExpression statement hlt assignment.value).1,
      (partsBelow_addExpression statement hparent assignment.target).1, List.append_assoc]
    rfl

end Tree.SyntaxTree

namespace Reading

/-- The node of an assigning statement keeps its sides. -/
theorem lasts_sideParts : Lasts fun tree id ↦ ∀ text assignment,
    tree.text? id = some (String.ofList text) → (shapeOf text).assignment? = some assignment →
      tree.kind? id = some (SyntaxTree.statementKind (shapeOf text)) ∧
        tree.partsBelow id = SyntaxTree.sideParts assignment where
  grow {tree grown id} h hgrows hstatement text assignment htext hshape := by
    have hlt := SyntaxTree.lt_size_of_isStatement hstatement
    rw [hgrows.keeps.text?_eq hlt] at htext
    obtain ⟨hkind, hparts⟩ := h text assignment htext hshape
    refine ⟨(hgrows.keeps.kind?_eq hlt).trans hkind, ?_⟩
    rw [hgrows.keeps.partsBelow_eq hlt ?_, hparts]
    rw [hkind]
    rcases statementKind_of_assignment? hshape with heq | heq <;> rw [heq] <;> decide
  member {tree parent} hparent segment signature hshape text assignment htext hother := by
    rw [SyntaxTree.text?_member hparent hshape] at htext
    rw [← String.ofList_inj.1 (Option.some.inj htext), hshape] at hother
    cases hother
  statement {tree parent} hparent segment hshape text assignment htext hother := by
    have hbare := SyntaxTree.bare?_statement hparent hshape
    rw [SyntaxTree.text?_statement hparent hshape] at htext
    rw [← String.ofList_inj.1 (Option.some.inj htext)] at hother ⊢
    refine ⟨by rw [SyntaxTree.kind?_eq_bare?, hbare, Option.map_some], ?_⟩
    have hlaid : tree.addStatement parent (shapeOf segment.text) segment =
        (tree.addChild parent (SyntaxTree.statementKind (shapeOf segment.text)) segment.selection
          (String.ofList segment.text)).addAssignment tree.size segment assignment := by
      unfold SyntaxTree.addStatement
      cases hcase : shapeOf segment.text <;> rw [hcase] at hother <;> cases hother <;> rfl
    rw [hlaid, SyntaxTree.partsBelow_addAssignment _ (by simp), SyntaxTree.partsBelow_addChild_self,
      List.nil_append]

end Reading

/-- Below the node of an assigning statement of a module stand the sides of the assignment. -/
theorem sideParts_readModule (component source : String) {id : Nat}
    (hid : id ∈ (readModule component source).tree.statementNodes) {text : List Char}
    (htext : (readModule component source).tree.text? id = some (String.ofList text))
    {assignment : Assignment} (hshape : (shapeOf text).assignment? = some assignment) :
    (readModule component source).tree.kind? id = some (SyntaxTree.statementKind (shapeOf text)) ∧
      (readModule component source).tree.partsBelow id = SyntaxTree.sideParts assignment :=
  Reading.lasts_sideParts.readModule component source hid text assignment htext hshape

end VbaLint
