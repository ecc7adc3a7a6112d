import VbaLint.Proofs.Module.AssignmentNodes
import VbaLint.Proofs.Module.TreeGrammar
import VbaLint.Proofs.Statement.Namings
import VbaLint.Proofs.Tree.Enclosing

/-!
# The identifiers of a tree

An identifier belongs to the statement whose node is the nearest above it. Where a statement is laid out,
identifiers are added for its names and words, in the order in which its form has them.
-/

namespace VbaLint.Tree.SyntaxTree

open Source Statement Text

variable {tree grown further : SyntaxTree} {id node parent : Nat}

/-! ## Identifiers and their statements -/

/-- The node of the statement that a node belongs to. -/
def owner? (tree : SyntaxTree) (id : Nat) : Option Nat :=
  (id :: tree.ancestors id).find? tree.isStatement

/-- The node of the statement that an identifier belongs to, its text and its range. -/
def identifierAt? (tree : SyntaxTree) (id : Nat) : Option (Option Nat × String × Selection) :=
  ((tree.node? id).filter (·.kind == .identifier)).map fun node ↦
    (tree.owner? id, node.text, node.selection)

def identifiers (tree : SyntaxTree) : List (Option Nat × String × Selection) :=
  (List.range tree.size).filterMap tree.identifierAt?

theorem owner?_of_isStatement (h : tree.isStatement id = true) : tree.owner? id = some id :=
  List.find?_cons_of_pos h

theorem owner?_of_parent (hplain : tree.isStatement id = false)
    (hparent : tree.parent? id = some parent) : tree.owner? id = tree.owner? parent := by
  rw [owner?, List.find?_cons_of_neg (Bool.eq_false_iff.1 hplain), ancestors_of_parent hparent]
  rfl

theorem owner?_of_no_parent (hplain : tree.isStatement id = false) (hparent : tree.parent? id = none) :
    tree.owner? id = none := by
  rw [owner?, List.find?_cons_of_neg (Bool.eq_false_iff.1 hplain), ancestors_of_no_parent hparent]
  rfl

/-- A node goes on to belong to the same statement. -/
theorem Keeps.owner?_eq {takes : Nat → Prop} (h : Keeps takes tree grown) (hid : id < tree.size) :
    grown.owner? id = tree.owner? id := by
  induction id using Nat.strongRecOn with
  | ind id ih =>
    have hstatement := h.isStatement_eq hid
    have hparent := h.parent?_eq hid
    cases hsome : tree.isStatement id with
    | true => rw [owner?_of_isStatement hsome, owner?_of_isStatement (hstatement.trans hsome)]
    | false =>
      cases hup : tree.parent? id with
      | none =>
        rw [owner?_of_no_parent hsome hup,
          owner?_of_no_parent (hstatement.trans hsome) (hparent.trans hup)]
      | some up =>
        rw [owner?_of_parent hsome hup, owner?_of_parent (hstatement.trans hsome) (hparent.trans hup)]
        exact ih up (parent_lt hup) (Nat.lt_trans (parent_lt hup) hid)

theorem identifierAt?_eq_bare? (tree : SyntaxTree) (id : Nat) : tree.identifierAt? id =
    ((tree.bare? id).filter (·.kind == .identifier)).map fun node ↦
      (tree.owner? id, node.text, node.selection) := by
  rw [identifierAt?, bare?]
  cases tree.node? id with
  | none => rfl
  | some node =>
    rw [Option.map_some, Option.filter_some, Option.filter_some]
    change _ = Option.map _ (if (node.kind == NodeKind.identifier) = true then some node.bare else none)
    split <;> rfl

/-- An identifier of the tree is listed with the statement that it belongs to. -/
theorem mem_identifiers {node : Node} (hnode : tree.node? id = some node)
    (hkind : node.kind = .identifier) : (tree.owner? id, node.text, node.selection) ∈ tree.identifiers := by
  refine List.mem_filterMap.2 ⟨id, List.mem_range.2 (lt_size_of_node? hnode), ?_⟩
  rw [identifierAt?, hnode, Option.filter_some, if_pos (beq_iff_eq.2 hkind), Option.map_some]

section AddChild

variable {kind : NodeKind} {selection : Selection} {text : String}

/-- A new node is an identifier or it leaves the identifiers alone. -/
theorem identifiers_addChild (hparent : parent < tree.size) :
    (tree.addChild parent kind selection text).identifiers = tree.identifiers ++
      if kind = .identifier then
        [((tree.addChild parent kind selection text).owner? tree.size, text, selection)]
      else [] := by
  have hkeeps : Keeps (fun _ ↦ True) tree (tree.addChild parent kind selection text) :=
    (Keeps.refl _ tree).addChild hparent (fun _ ↦ trivial) kind selection text
  have hold : (List.range tree.size).filterMap
      (tree.addChild parent kind selection text).identifierAt? = tree.identifiers := by
    apply List.filterMap_congr
    intro id hid
    have hlt := List.mem_range.1 hid
    rw [identifierAt?_eq_bare?, identifierAt?_eq_bare?, bare?_addChild_of_lt hlt, hkeeps.owner?_eq hlt]
  rw [identifiers, size_addChild, List.range_succ, List.filterMap_append, hold, List.filterMap_cons,
    identifierAt?_eq_bare?, bare?_addChild_self hparent, Option.filter_some]
  by_cases hidentifier : kind = .identifier
  · rw [if_pos hidentifier, if_pos (beq_iff_eq.2 hidentifier)]
    rfl
  · rw [if_neg hidentifier, if_neg (fun h ↦ hidentifier (eq_of_beq h))]
    rfl

/-- Other nodes add nothing to the identifiers. -/
theorem identifiers_addChild_of_ne (hparent : parent < tree.size) (hkind : kind ≠ .identifier) :
    (tree.addChild parent kind selection text).identifiers = tree.identifiers := by
  rw [identifiers_addChild hparent, if_neg hkind, List.append_nil]

end AddChild

/-- Ranges of identifiers are never widened. -/
theorem identifiers_widen {kind : NodeKind} (hkind : tree.kind? id = some kind)
    (hwidened : kind.isWidened = true) (selection : Selection) :
    (tree.widen id selection).identifiers = tree.identifiers := by
  have hkeeps := (Keeps.refl (fun _ ↦ True) tree).widen id selection
  rw [identifiers, identifiers, size_widen]
  apply List.filterMap_congr
  intro other hother
  rw [identifierAt?_eq_bare?, identifierAt?_eq_bare?, bare?_widen, hkeeps.owner?_eq (List.mem_range.1 hother)]
  split
  · next heq =>
    subst heq
    obtain ⟨node, hnode, rfl⟩ := Option.map_eq_some_iff.1 ((kind?_eq_bare? ..).symm.trans hkind)
    have hne : node.kind ≠ .identifier := fun heq ↦ by
      rw [heq] at hwidened
      cases hwidened
    have hplain : ¬(node.kind == .identifier) = true := fun heq ↦ hne (eq_of_beq heq)
    have hplain' : ¬((node.widen selection).kind == .identifier) = true := hplain
    rw [hnode, Option.map_some, Option.filter_some, Option.filter_some, if_neg hplain, if_neg hplain']
  · rfl

/-! ## Adding names -/

/-- What stands below `parent` and is no statement itself belongs to the statement at `node`. -/
structure Owns (tree : SyntaxTree) (node parent : Nat) : Prop where
  plain : ∃ kind, tree.kind? parent = some kind ∧ kind.holdsStatements = false
  owner : tree.owner? parent = some node

theorem Owns.lt_size (h : tree.Owns node parent) : parent < tree.size := by
  obtain ⟨_, hkind, -⟩ := h.plain
  exact lt_size_of_kind? hkind

theorem Owns.owner?_addChild (h : tree.Owns node parent) (kind : NodeKind) (selection : Selection)
    (text : String) : (tree.addChild parent kind selection text).owner? tree.size = some node := by
  obtain ⟨above, habove, hplain⟩ := h.plain
  have hkeeps : Keeps (fun _ ↦ True) tree (tree.addChild parent kind selection text) :=
    (Keeps.refl _ tree).addChild h.lt_size (fun _ ↦ trivial) kind selection text
  have hparent : (tree.addChild parent kind selection text).parent? tree.size = some parent := by
    rw [parent?_eq_bare?, bare?_addChild_self h.lt_size]
    rfl
  rw [owner?_of_parent ((isStatement_addChild_self habove kind selection text).trans hplain) hparent,
    hkeeps.owner?_eq h.lt_size, h.owner]

/-- The identifiers of the second tree are those of the first and behind them the given ones, which belong to
the statement at `node`. -/
structure AddsNames (node : Nat) (tree : SyntaxTree) (names : List (String × Selection))
    (grown : SyntaxTree) : Prop where
  keeps : Keeps (fun _ ↦ True) tree grown
  identifiers_eq : grown.identifiers = tree.identifiers ++ names.map (some node, ·)

namespace AddsNames

variable {names more : List (String × Selection)}

theorem refl (node : Nat) (tree : SyntaxTree) : AddsNames node tree [] tree :=
  ⟨.refl _ tree, (List.append_nil _).symm⟩

theorem trans (h : AddsNames node tree names grown) (h' : AddsNames node grown more further) :
    AddsNames node tree (names ++ more) further where
  keeps := h.keeps.trans h'.keeps
  identifiers_eq := by
    rw [h'.identifiers_eq, h.identifiers_eq, List.map_append, List.append_assoc]

/-- Names added to a statement leave its nodes with their owner. -/
theorem owns (h : AddsNames node tree names grown) (howns : tree.Owns node parent) :
    grown.Owns node parent where
  plain := by
    rw [h.keeps.kind?_eq howns.lt_size]
    exact howns.plain
  owner := (h.keeps.owner?_eq howns.lt_size).trans howns.owner

end AddsNames

/-! ## Names of statements -/

/-- The names and words of a statement as they are recorded. -/
def reports (statement : Segment) (namings : List Naming) : List (String × Selection) :=
  namings.map fun naming ↦ recorded statement naming.reported

section Reports

variable (statement : Segment)

theorem reports_append (namings more : List Naming) :
    reports statement (namings ++ more) = reports statement namings ++ reports statement more :=
  List.map_append

theorem reports_exact (name : Span) :
    reports statement [Naming.exact name] = [recorded statement name] := by
  rw [reports, List.map_singleton, Naming.reported_exact]

theorem reports_expressionNamings (span : Span) :
    reports statement (namingsIn span expressionNamings) =
      ((occurrences span.text).map (Span.behind span.offset)).map (recorded statement) := by
  rw [reports, namingsIn, expressionNamings, List.map_map, List.map_map, List.map_map]
  apply List.map_congr_left
  intro word _
  simp only [Function.comp_apply, Naming.reported_behind, Naming.reported_exact]

/-- A name that is taken from an item is recorded where it is found when the item is searched. -/
theorem reports_takenNamings (item : Span) (taken : Option (List Char × List Char)) :
    reports statement ((takenNamings item.text taken).map (Naming.behind item.offset)) =
      (taken.map (·.1)).toList.map fun name ↦
        recorded statement ⟨name, item.offset + offsetOf name item.text⟩ := by
  cases taken <;> rfl

end Reports

section Parts

variable (h : tree.Owns node parent) (statement : Segment)
include h

/-- A node that is no identifier adds none, and what stands below it belongs to the same statement. -/
theorem addsNames_addSpan (kind : NodeKind) (hkind : kind ≠ .identifier)
    (hplain : kind.holdsStatements = false) (span : Span) :
    AddsNames node tree [] (tree.addSpan parent kind statement span) ∧
      (tree.addSpan parent kind statement span).Owns node tree.size := by
  refine ⟨⟨?_, ?_⟩, ⟨⟨kind, kind?_addChild_self h.lt_size, hplain⟩, h.owner?_addChild _ _ _⟩⟩
  · exact (Keeps.refl _ tree).addChild h.lt_size (fun _ ↦ trivial) kind _ _
  · exact (identifiers_addChild_of_ne h.lt_size hkind).trans (List.append_nil _).symm

theorem addsNames_identifier (name : Span) :
    AddsNames node tree (reports statement [Naming.exact name])
      (tree.addSpan parent .identifier statement name) where
  keeps := (Keeps.refl _ tree).addChild h.lt_size (fun _ ↦ trivial) .identifier _ _
  identifiers_eq := by
    rw [addSpan, identifiers_addChild h.lt_size, if_pos rfl, h.owner?_addChild, reports_exact]
    rfl

theorem addsNames_foldl_addSpan (words : List Span) : AddsNames node tree (words.map (recorded statement))
    (words.foldl (fun grown word ↦ grown.addSpan parent .identifier statement word) tree) := by
  induction words generalizing tree with
  | nil => exact .refl node tree
  | cons word words ih =>
    have hword := addsNames_identifier h statement word
    rw [reports_exact] at hword
    exact hword.trans (ih (hword.owns h))

theorem addsNames_addExpression (span : Span) :
    AddsNames node tree (reports statement (namingsIn span expressionNamings))
      (tree.addExpression parent statement span) := by
  obtain ⟨hbegun, hinner⟩ := addsNames_addSpan h statement .expression (by decide) rfl span
  rw [reports_expressionNamings, addExpression_eq_foldl]
  exact hbegun.trans (addsNames_foldl_addSpan hinner statement _)

theorem addsNames_addConstant (item : Span) :
    AddsNames node tree (reports statement (namingsIn item constantNamings))
      (tree.addConstant parent statement item) := by
  obtain ⟨hbegun, hinner⟩ := addsNames_addSpan h statement .constSubStmt (by decide) rfl item
  let begun := tree.addSpan parent .constSubStmt statement item
  let name := item.text.takeWhile isIdentifierChar
  let named := if name.isEmpty then begun
    else begun.addSpan tree.size .identifier statement ⟨name, item.offset⟩
  have hnamed : AddsNames node begun
      (reports statement (if name.isEmpty then [] else [Naming.exact ⟨name, item.offset⟩])) named := by
    simp only [named]
    split
    · exact .refl node begun
    · exact addsNames_identifier hinner statement _
  rw [namingsIn_constantNamings, reports_append]
  unfold addConstant
  dsimp only
  cases item.text.dropWhile (· != '=') with
  | nil => exact hbegun.trans (hnamed.trans (.refl node named))
  | cons c behind =>
    exact hbegun.trans (hnamed.trans (addsNames_addExpression (hnamed.owns hinner) statement _))

/-- A name that is taken from an item is added below the node of the item. -/
theorem addsNames_taken {kind : NodeKind} (hkind : kind ≠ .identifier)
    (hplain : kind.holdsStatements = false) (item : Span) {taken : Option (List Char × List Char)}
    {name? : Option (List Char)} (hname : name? = taken.map (·.1)) :
    AddsNames node tree (reports statement ((takenNamings item.text taken).map (Naming.behind item.offset)))
      (name?.elim (tree.addSpan parent kind statement item) fun name ↦
        (tree.addSpan parent kind statement item).addSpan tree.size .identifier statement
          ⟨name, item.offset + offsetOf name item.text⟩) := by
  obtain ⟨hbegun, hinner⟩ := addsNames_addSpan h statement kind hkind hplain item
  rw [reports_takenNamings, ← hname]
  cases name? with
  | none => exact hbegun
  | some name =>
    have hadded := addsNames_identifier hinner statement ⟨name, item.offset + offsetOf name item.text⟩
    rw [reports_exact] at hadded
    exact hbegun.trans hadded

theorem addsNames_addVariable (item : Span) :
    AddsNames node tree (reports statement (namingsIn item variableNamings))
      (tree.addVariable parent statement item) := by
  have hadds := addsNames_taken h statement (by decide : NodeKind.variableSubStmt ≠ .identifier) rfl item
    (map_name_declaredItem? item.text)
  unfold addVariable
  cases hdeclared : declaredItem? item.text <;> rw [hdeclared] at hadds <;> exact hadds

theorem addsNames_addParameter (item : Span) :
    AddsNames node tree (reports statement (namingsIn item parameterNamings))
      (tree.addParameter parent statement item) := by
  have hadds := addsNames_taken h statement (by decide : NodeKind.arg ≠ .identifier) rfl item
    (map_name_parameter? item.text)
  unfold addParameter
  cases hdeclared : parameter? item.text <;> rw [hdeclared] at hadds <;> exact hadds

theorem addsNames_addAssignment (assignment : Assignment) :
    AddsNames node tree
      (reports statement (namingsIn assignment.target targetNamings ++
        namingsIn assignment.value expressionNamings))
      (tree.addAssignment parent statement assignment) := by
  have hvalue {named : SyntaxTree}
      (htarget : AddsNames node tree (reports statement (namingsIn assignment.target targetNamings)) named) :=
    htarget.trans (addsNames_addExpression (htarget.owns h) statement assignment.value)
  rw [reports_append]
  unfold addAssignment
  refine hvalue ?_
  unfold namingsIn targetNamings
  cases plainName? assignment.target.text with
  | some name => exact addsNames_identifier h statement ⟨name, assignment.target.offset⟩
  | none => exact addsNames_addExpression h statement assignment.target

/-- The items of a list are added one by one. -/
theorem addsNames_addItems {add : SyntaxTree → Span → SyntaxTree} {namings : List Char → List Naming}
    (hadd : ∀ further item, further.Owns node parent →
      AddsNames node further (reports statement (namingsIn item namings)) (add further item))
    (list : Span) :
    AddsNames node tree (reports statement (listNamings list namings)) (tree.addItems add list) := by
  unfold addItems listNamings
  generalize items list.text = spans
  induction spans generalizing tree with
  | nil => exact .refl node tree
  | cons span spans ih =>
    have hfirst := hadd tree (span.behind list.offset) h
    rw [List.flatMap_cons, reports_append]
    exact hfirst.trans (ih (hfirst.owns h))

end Parts

/-! ## Statements -/

section Statements

variable {above : NodeKind} {segment : Segment} (habove : tree.kind? parent = some above)
  (hholds : above.holdsStatements = true)
include habove hholds

/-- A new node of a statement owns what is put below it. -/
theorem owns_addChild {kind : NodeKind} (hplain : kind.holdsStatements = false) (selection : Selection)
    (text : String) : (tree.addChild parent kind selection text).Owns tree.size tree.size where
  plain := ⟨kind, kind?_addChild_self (lt_size_of_kind? habove), hplain⟩
  owner := owner?_of_isStatement ((isStatement_addChild_self habove kind selection text).trans hholds)

/-- Where a statement is laid out, its names and words are added. -/
theorem identifiers_addStatement (hshape : ∀ signature, shapeOf segment.text ≠ .procedureStart signature) :
    (tree.addStatement parent (shapeOf segment.text) segment).identifiers =
      tree.identifiers ++ (reports segment (namingsOf segment.text)).map (some tree.size, ·) := by
  have hkind : statementKind (shapeOf segment.text) ≠ .identifier := by
    intro heq
    have hstatement := NodeKind.isPlainStatement_statementKind hshape
    rw [heq] at hstatement
    cases hstatement
  have hplain := (nodeKind_shapeOf segment.text).1
  rw [Shape.nodeKind_eq hshape] at hplain
  have hnode := owns_addChild habove hholds hplain segment.selection (String.ofList segment.text)
  have hbegun : (tree.addChild parent (statementKind (shapeOf segment.text)) segment.selection
      (String.ofList segment.text)).identifiers = tree.identifiers :=
    identifiers_addChild_of_ne (lt_size_of_kind? habove) hkind
  rw [← hbegun]
  refine AddsNames.identifiers_eq ?_
  unfold addStatement namingsOf
  generalize shapeOf segment.text = shape at hshape hnode ⊢
  cases shape with
  | option | «attribute» | declare => exact .refl _ _
  | blockStart _ name => exact addsNames_identifier hnode segment name
  | constants list =>
    exact addsNames_addItems hnode segment
      (fun _ item hfurther ↦ addsNames_addConstant hfurther segment item) list
  | «variables» list =>
    exact addsNames_addItems hnode segment
      (fun _ item hfurther ↦ addsNames_addVariable hfurther segment item) list
  | setAssignment assignment | letAssignment assignment =>
    exact addsNames_addAssignment hnode segment assignment
  | call expression => exact addsNames_addExpression hnode segment expression
  | procedureEnd | blockEnd | other =>
    exact addsNames_addExpression hnode segment ⟨segment.text, 0⟩
  | procedureStart signature => exact absurd rfl (hshape signature)

/-- Where a member is laid out, its name and those of its parameters are added. -/
theorem identifiers_addMember {signature : Signature}
    (hshape : shapeOf segment.text = .procedureStart signature) :
    ((tree.addMember parent signature segment).addChild tree.size .block .unset "").identifiers =
      tree.identifiers ++ (reports segment (namingsOf segment.text)).map (some tree.size, ·) := by
  have hmember := isProcedure_of_signature? (signature?_of_shapeOf hshape)
  have hkind : signature.kind ≠ .identifier := by
    intro heq
    rw [heq] at hmember
    cases hmember
  have hplain := (nodeKind_shapeOf segment.text).1
  rw [hshape] at hplain
  let begun := tree.addChild parent signature.kind segment.selection (String.ofList segment.text)
  let named := begun.addSpan tree.size .identifier segment signature.name
  have hnode : begun.Owns tree.size tree.size :=
    owns_addChild habove hholds hplain segment.selection (String.ofList segment.text)
  have hname : AddsNames tree.size begun (reports segment [Naming.exact signature.name]) named :=
    addsNames_identifier hnode segment signature.name
  have hparts : AddsNames tree.size begun (reports segment (namingsOf segment.text))
      (tree.addMember parent signature segment) := by
    unfold addMember namingsOf
    rw [hshape]
    cases hlist : signature.parameters with
    | none => simpa [Shape.namings, hlist] using hname
    | some list =>
      have hitems := addsNames_addItems (hname.owns hnode) segment
        (fun _ item hfurther ↦ addsNames_addParameter hfurther segment item) list
      simpa [Shape.namings, hlist, reports] using hname.trans hitems
  rw [identifiers_addChild_of_ne (hparts.owns hnode).lt_size (by decide), hparts.identifiers_eq,
    identifiers_addChild_of_ne (lt_size_of_kind? habove) hkind]

end Statements

end VbaLint.Tree.SyntaxTree
