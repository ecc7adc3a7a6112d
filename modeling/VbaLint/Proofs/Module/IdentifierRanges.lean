import VbaLint.Proofs.Module.IdentifierNodes
import VbaLint.Proofs.Module.Openings
import VbaLint.Proofs.Source.Ranges

/-!
# Ranges of identifiers

The identifiers of a module are the names and words of its statements. The range of an identifier covers its
text on the line of its statement, but not always there where the name was found: the range of a parameter
or a variable begins where the same letters stand first in its item.
-/

namespace VbaLint

open Source Statement Text Tree

variable {tree grown : SyntaxTree} {segments : List Segment} {segment statement : Segment}

/-! ## The names of a module -/

/-- The identifiers of a tree are the names and words of the statements, which belong to its statement nodes
one by one, in their order. -/
def NamesAll (tree : SyntaxTree) (segments : List Segment) : Prop :=
  tree.identifiers = (tree.statementNodes.zip segments).flatMap fun (node, segment) ↦
    (SyntaxTree.reports segment (namingsOf segment.text)).map (some node, ·)

/-- A statement that is laid out adds its names behind those before it. -/
theorem NamesAll.snoc {node : Nat} (h : NamesAll tree segments) (hrenders : tree.RendersAll segments)
    (hnodes : grown.statementNodes = tree.statementNodes ++ [node])
    (hnames : grown.identifiers = tree.identifiers ++
      (SyntaxTree.reports segment (namingsOf segment.text)).map (some node, ·)) :
    NamesAll grown (segments ++ [segment]) := by
  rw [NamesAll, hnodes, List.zip_append hrenders.length_eq, List.flatMap_append, ← h, hnames]
  congr 1
  exact (List.append_nil _).symm

namespace Reading

variable {reading : Reading}

theorem keptByWidening_namesAll (segments : List Segment) : KeptByWidening (NamesAll · segments) := by
  intro tree h id kind hkind hwidened selection
  rw [NamesAll, SyntaxTree.identifiers_widen hkind hwidened, SyntaxTree.statementNodes_widen]
  exact h

/-- The room that is made for a statement holds no identifiers. -/
theorem Holds.identifiers_statementParent (h : reading.Holds segments) (selection : Selection) :
    (reading.statementParent selection).1.identifiers = reading.tree.identifiers := by
  unfold Reading.statementParent
  split
  · next opened hopened =>
    obtain ⟨hblock, kind, hkind, hprocedure⟩ := h.stands.procedure_kind hopened
    have hwidened := NodeKind.isWidened_of_isProcedure hprocedure
    rw [SyntaxTree.identifiers_widen (by rw [SyntaxTree.kind?_widen, hkind]) hwidened,
      SyntaxTree.identifiers_widen hblock rfl]
  · have hkind := h.stands.declarations_kind
    have hlt := SyntaxTree.lt_size_of_kind? hkind
    rw [SyntaxTree.identifiers_widen ((SyntaxTree.kind?_addChild_of_lt hlt).trans hkind) rfl,
      SyntaxTree.identifiers_addChild_of_ne hlt (by decide)]

theorem namesAll_beginProcedure (hheld : reading.Holds segments) (h : NamesAll reading.tree segments)
    {signature : Signature} (hshape : shapeOf segment.text = .procedureStart signature) :
    NamesAll (reading.beginProcedure signature segment).tree (segments ++ [segment]) := by
  have hclosed := (keptByWidening_namesAll segments).closeProcedure hheld h
  have hstands := hheld.closeProcedure.1
  have hbody := hstands.stands.body_kind
  have hnodes := hheld.statementNodes_beginProcedure hshape
  rw [← statementNodes_closeProcedure reading] at hnodes
  have hlaid := SyntaxTree.identifiers_addMember hbody rfl hshape
  have hbegun := (hheld.beginProcedure hshape).1.stands.body_kind
  rw [Reading.beginProcedure, SyntaxTree.kind?_widen] at hbegun
  exact hclosed.snoc hstands.renders hnodes
    ((SyntaxTree.identifiers_widen hbegun rfl segment.selection).trans hlaid)

theorem namesAll_plainStatement (hheld : reading.Holds segments) (h : NamesAll reading.tree segments)
    (hshape : ∀ signature, shapeOf segment.text ≠ .procedureStart signature) :
    NamesAll (reading.plainStatement (shapeOf segment.text) segment).tree (segments ++ [segment]) := by
  obtain ⟨-, -, above, habove, hholds⟩ := hheld.statementParent segment.selection
  refine h.snoc hheld.renders (hheld.statementNodes_plainStatement hshape) ?_
  rw [← hheld.identifiers_statementParent segment.selection]
  exact SyntaxTree.identifiers_addStatement habove hholds hshape

/-- Reading a statement adds its names with its node. -/
theorem follows_namesAll :
    Follows (fun _ ↦ True) fun reading segments ↦
      reading.Holds segments ∧ NamesAll reading.tree segments where
  holds h := h.1
  outside h header pending annotations := ⟨follows_holds.outside h.1 header pending annotations, h.2⟩
  code {reading segments} h segment _ := by
    obtain ⟨hheld, hnames⟩ := h
    refine ⟨(hheld.codeStatement segment).1, ?_⟩
    have hwiden := keptByWidening_namesAll segments
    have hreads := readsAs_codeStatement reading segment
    generalize reading.codeStatement segment = later,
      (reading.openings.nextCode segment.text).2 = makes,
      reading.openings.endsMember segment.text = drops at hreads ⊢
    cases hreads with
    | blockLine hblock => exact hwiden.blockLine hheld hnames hblock segment
    | endProcedure hclosed hopened => exact hwiden.endProcedure hheld hnames hopened segment
    | beginProcedure hclosed hshape => exact namesAll_beginProcedure hheld hnames hshape
    | plainStatement hclosed hshape => exact namesAll_plainStatement hheld hnames hshape

theorem namesAll_start (component : String) (source : List Char) :
    NamesAll (Reading.start component source).tree [] := by
  have hroot : (SyntaxTree.ofRoot component (moduleSelection source)).identifiers = [] := rfl
  rw [NamesAll, List.zip_nil_right, Reading.start,
    SyntaxTree.identifiers_addChild_of_ne Nat.zero_lt_two (by decide),
    SyntaxTree.identifiers_addChild_of_ne Nat.zero_lt_one (by decide), hroot]
  rfl

end Reading

/-- The identifiers of a module are what its statements name. -/
theorem namesAll_readModule (component text : String) :
    NamesAll (readModule component text).tree (keptStatements text.toList) :=
  (Reading.follows_namesAll.foldl_item
    ⟨Reading.holds_start component text.toList, Reading.namesAll_start component text.toList⟩
    (lineItems text.toList) fun _ _ ↦ trivial).2

/-! ## Statements in their lines -/

namespace Source

variable {lines : List (List Char)} {p q : Place}

theorem not_isWordPart_of_isEdge {c : Char} (h : IsEdge c) : isWordPart c = false := by
  rcases h with hblank | rfl | rfl
  · exact not_isWordPart_of_isBlank hblank
  · exact not_isWordPart_of_mem (by decide)
  · exact not_isWordPart_of_mem (by decide)

/-- A statement that is written on one line stands in it apart from other words. -/
theorem Segment.IsReadFrom.isApart_line (h : statement.IsReadFrom lines p q) (hline : p.line = q.line) :
    0 < p.column ∧ ((lineAt lines p.line).take (p.column - 1)).length = p.column - 1 ∧
      IsApart ⟨statement.text, byteLength ((lineAt lines p.line).take (p.column - 1))⟩
        (lineAt lines p.line) := by
  obtain ⟨first, hhead, -, hfirst⟩ := h.begins
  obtain ⟨rest, hrest⟩ := h.text.isPrefix_drop hline
  have hcolumn : 0 < p.column := by
    refine Nat.pos_of_ne_zero fun hzero ↦ ?_
    rw [charAt, hzero] at hfirst
    cases hfirst
  let front := (lineAt lines p.line).take (p.column - 1)
  have hfront : front.length = p.column - 1 := by
    refine List.length_take_of_le (Nat.le_of_not_lt fun hlt ↦ ?_)
    rw [List.drop_eq_nil_of_le hlt.le] at hrest
    rw [(List.append_eq_nil_iff.1 hrest).1] at hhead
    cases hhead
  have hsplit : lineAt lines p.line = front ++ statement.text ++ rest := by
    rw [List.append_assoc, hrest, List.take_append_drop]
  refine ⟨hcolumn, hfront, front, rest, ⟨hsplit, rfl⟩, fun c hc ↦ ?_, fun c hc ↦ ?_⟩
  · refine not_isWordPart_of_isEdge (h.left ?_)
    rw [← hfront]
    exact charAt_length_of_getLast? (hsplit.trans (List.append_assoc ..)) hc
  · have hend : q = ⟨p.line, (front ++ statement.text).length + 1⟩ := by
      refine Place.ext hline.symm ?_
      rw [h.text.column_eq hline, List.length_append, hfront]
      dsimp only
      omega
    refine not_isWordPart_of_isEdge (h.right ?_)
    rw [hend]
    exact charAt_succ_length_of_head? hsplit hc

end Source

/-! ## Where identifiers stand -/

/-- The range `range` of a name of a statement that is written from `p` on, on one line. -/
structure IsRangeOn (naming : Naming) (statement : Segment) (p : Place) (line : List Char)
    (range : Selection) : Prop where
  /-- The name stands in the line where the statement has it. -/
  found : (naming.behind (byteLength (line.take (p.column - 1)))).IsFound line
  /-- If the statement begins on the first line of its range, then the range of the name covers its
  letters. -/
  covers : p.line = statement.selection.startLine → ∃ before behind,
    line = before ++ naming.name.text ++ behind ∧
      range = .onLine p.line (before.length + 1) naming.name.text.length
  /-- The range begins with the name just if the letters do not stand earlier where the name is searched. -/
  first_eq_iff :
    range.first = ⟨p.line, p.column + (takeBytes naming.name.offset statement.text).length⟩ ↔
      p.line = statement.selection.startLine ∧ ¬naming.OccursBefore

section

variable {lines : List (List Char)} {p q : Place} {naming : Naming}

theorem isRangeOn_placeIn (hread : statement.IsReadFrom lines p q) (hline : p.line = q.line)
    (hfound : naming.IsFound statement.text) :
    IsRangeOn naming statement p (lineAt lines p.line)
      (SyntaxTree.placeIn statement naming.reported) := by
  obtain ⟨hcolumn, hfront, hapart⟩ := hread.isApart_line hline
  have hstart (hfirst : p.line = statement.selection.startLine) :
      statement.selection.startColumn = p.column :=
    congrArg Place.column (hread.first_eq_iff.2 hfirst)
  obtain ⟨before, behind, hreported⟩ := hfound.exists_splits_reported
  refine ⟨hfound.inSpan hapart, fun hfirst ↦ ?_, ?_⟩
  · obtain ⟨rest, hline⟩ := hread.text.isPrefix_drop hline
    refine ⟨(lineAt lines p.line).take (p.column - 1) ++ before, behind ++ rest, ?_, ?_⟩
    · have htext : statement.text = before ++ naming.name.text ++ behind := hreported.text_eq
      calc lineAt lines p.line
        _ = (lineAt lines p.line).take (p.column - 1) ++ (statement.text ++ rest) := by
          rw [hline, List.take_append_drop]
        _ = _ := by
          rw [htext]
          simp only [List.append_assoc]
    · rw [SyntaxTree.placeIn_of_splits hreported, hstart hfirst, ← hfirst, List.length_append, hfront]
      congr 1
      omega
  · obtain ⟨front, rest, hname, -⟩ := hfound.stands
    have hiff : (SyntaxTree.placeIn statement naming.reported).first =
        ⟨p.line, p.column + (takeBytes naming.name.offset statement.text).length⟩ ↔
          statement.selection.startLine = p.line ∧ statement.selection.startColumn + before.length =
            p.column + (takeBytes naming.name.offset statement.text).length := by
      rw [SyntaxTree.placeIn_of_splits hreported]
      exact Place.ext_iff
    rw [hiff, ← hfound.reported_eq_iff, eq_comm, hname.takeBytes_eq]
    refine and_congr_right fun hfirst ↦ ?_
    rw [hstart hfirst, Nat.add_left_cancel_iff]
    constructor
    · intro hlength
      have hbefore : before = front :=
        (List.prefix_of_prefix_length_le hreported.prefix_before hname.prefix_before hlength.le).eq_of_length
          hlength
      refine congrArg (Span.mk naming.name.text) ?_
      exact hreported.offset_eq.trans (hbefore ▸ hname.offset_eq.symm)
    · intro heq
      rw [← hreported.takeBytes_eq, ← hname.takeBytes_eq, heq]

end

/-- The identifiers of a module are the names and words of its statements, in their order. Each belongs to the
nearest statement and has a name of it as its text. The places that are counted in the bytes of the statement
end characters. If the statement is written on one line, the name stands in this line as a whole word, unless
a number ends before it or the word `As` begins behind it, and the range covers the letters of the name. It
covers the name itself just if the same letters do not stand earlier in the item of the name. -/
theorem identifier_ranges (component text : String) :
    let tree := (readModule component text).tree
    let lines := physicalLines text.toList
    NamesAll tree (keptStatements text.toList) ∧
      ∀ id node, tree.node? id = some node → node.kind = .identifier →
        ∃ owner statement naming p q,
          tree.IsNearest (fun above ↦ tree.isStatement above = true) id owner ∧
          (owner, statement) ∈ tree.statementNodes.zip (keptStatements text.toList) ∧
          tree.Renders owner statement ∧ statement.IsReadFrom lines p q ∧
          naming ∈ namingsOf statement.text ∧ node.text = String.ofList naming.name.text ∧
          naming.IsCutFrom statement.text ∧
          (p.line = q.line → IsRangeOn naming statement p (lineAt lines p.line) node.selection) := by
  intro tree lines
  have hnames : NamesAll tree (keptStatements text.toList) := namesAll_readModule component text
  refine ⟨hnames, fun id node hnode hkind ↦ ?_⟩
  have hmem := SyntaxTree.mem_identifiers hnode hkind
  rw [hnames] at hmem
  obtain ⟨⟨owner, statement⟩, hpair, hmem⟩ := List.mem_flatMap.1 hmem
  obtain ⟨_, hreport, heq⟩ := List.mem_map.1 hmem
  obtain ⟨naming, hnaming, rfl⟩ := List.mem_map.1 hreport
  obtain ⟨howner, htext, hselection⟩ : some owner = tree.owner? id ∧
      String.ofList naming.reported.text = node.text ∧
        SyntaxTree.placeIn statement naming.reported = node.selection := by
    simpa [SyntaxTree.recorded] using heq
  have hheld := (Reading.holds_start component text.toList).foldl_item (lineItems text.toList)
  have hrenders := List.forall₂_zip hheld.renders hpair
  have hstatement : statement ∈ statementsOf text.toList :=
    (Openings.start.kept_sublist _).mem (List.of_mem_zip hpair).2
  obtain ⟨p, q, hread⟩ := exists_isReadFrom_of_mem_statementsOf hstatement
  have hfound := isFound_of_mem_namingsOf hnaming
  refine ⟨owner, statement, naming, p, q, SyntaxTree.find?_eq_some_iff_isNearest.1 howner.symm, hpair,
    hrenders, hread, hnaming, htext.symm, hfound.isCutFrom, fun hline ↦ ?_⟩
  rw [← hselection]
  exact isRangeOn_placeIn hread hline hfound

/-- The range of a parameter covers a letter of the word `ByVal` before it, the name of a function is cut
before a type that follows it without a blank, and a word is read that begins inside a number. -/
theorem identifiers_inside_words :
    (let text := "Sub F(ByVal a As Long)\nEnd Sub\n";
      ((readModule "M" text).tree.node? 6).map (fun node ↦ (node.kind, node.text, node.selection)) =
          some (.identifier, "a", ⟨1, 10, 1, 10⟩) ∧
        charAt (physicalLines text.toList) ⟨1, 11⟩ = some 'l') ∧
      (let text := "Function fooas Long\nEnd Function\n";
        ((readModule "M" text).tree.node? 4).map (fun node ↦ (node.kind, node.text, node.selection)) =
            some (.identifier, "foo", ⟨1, 10, 1, 12⟩) ∧
          charAt (physicalLines text.toList) ⟨1, 13⟩ = some 'a') ∧
      let text := "y = 1_x\n";
      ((readModule "M" text).tree.node? 7).map (fun node ↦ (node.kind, node.text, node.selection)) =
          some (.identifier, "_x", ⟨1, 6, 1, 7⟩) ∧
        charAt (physicalLines text.toList) ⟨1, 5⟩ = some '1' := by
  decide +kernel

end VbaLint
