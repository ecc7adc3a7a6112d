import VbaLint.Proofs.Module.Directives
import VbaLint.Proofs.Module.Moving

/-!
# Code behind file headers

The header of an exported class or form is a `VERSION` line and one block, in which properties and further
blocks stand in any depth. Nothing of it becomes a node. What stands behind it is read as if it stood alone,
only further down.
-/

namespace VbaLint

open Source Statement Text Tree

/-- The statement closes a block of a header. -/
def Header.closesBlock (statement : List Char) : Bool := lowerAscii statement == "end".toList

/-- What stands in a block of a header: properties, and blocks that are closed again. -/
inductive HeaderContent : List (List Char) → Prop
  | nil : HeaderContent []
  | property {text : List Char} {rest : List (List Char)} (hopens : Header.opensBlock text = false)
      (hcloses : Header.closesBlock text = false) (hrest : HeaderContent rest) : HeaderContent (text :: rest)
  | block {opening closing : List Char} {content rest : List (List Char)}
      (hopens : Header.opensBlock opening = true) (hcontent : HeaderContent content)
      (hcloses : Header.closesBlock closing = true) (hrest : HeaderContent rest) :
      HeaderContent (opening :: content ++ closing :: rest)

/-- The text is the header of a file, in whole lines: a `VERSION` line and one block, without directives. -/
structure IsFileHeader (text : List Char) : Prop extends EndsLine text where
  block : ∃ version opening content closing,
    (statementsOf text).map (·.text) = version :: opening :: content ++ [closing] ∧
      "version ".toList.isPrefixOf (lowerAscii version) = true ∧ Header.opensBlock opening = true ∧
      HeaderContent content ∧ Header.closesBlock closing = true
  plain : ∀ comment ∈ commentsOf text, directive? comment.text = none

namespace Header

/-- All statements belong to the header, which leads from the one state to the other. -/
inductive Takes : Header → List (List Char) → Header → Prop
  | nil (header : Header) : Takes header [] header
  | cons {header later final : Header} {text : List Char} {rest : List (List Char)}
      (hnext : header.next text = (later, true)) (hrest : Takes later rest final) :
      Takes header (text :: rest) final

theorem Takes.append {header later final : Header} {texts rest : List (List Char)}
    (h : Takes header texts later) (hrest : Takes later rest final) : Takes header (texts ++ rest) final := by
  induction h with
  | nil => exact hrest
  | cons hnext _ ih => exact .cons hnext (ih hrest)

theorem opensBlock_of_closesBlock {text : List Char} (h : closesBlock text = true) :
    opensBlock text = false := by
  have hlowered : lowerAscii text = "end".toList := eq_of_beq h
  rw [opensBlock, hlowered]
  decide

theorem next_of_opensBlock {text : List Char} (h : opensBlock text = true) (depth : Nat) :
    (inside depth).next text = (inside (depth + 1), true) := if_pos h

theorem next_of_closesBlock {text : List Char} (h : closesBlock text = true) (depth : Nat) :
    (inside (depth + 1)).next text = (if depth = 0 then done else inside depth, true) := by
  rw [next, if_neg (by rw [opensBlock_of_closesBlock h]; decide)]
  exact if_pos h

theorem next_of_property {text : List Char} (hopens : opensBlock text = false)
    (hcloses : closesBlock text = false) (depth : Nat) :
    (inside (depth + 1)).next text = (inside (depth + 1), true) := by
  rw [next, if_neg (by rw [hopens]; decide)]
  exact if_neg (Bool.eq_false_iff.1 hcloses)

/-- The content of a block leads back to the depth where it began. -/
theorem takes_content {content : List (List Char)} (h : HeaderContent content) (depth : Nat) :
    Takes (inside (depth + 1)) content (inside (depth + 1)) := by
  induction h generalizing depth with
  | nil => exact .nil _
  | property hopens hcloses _ ih => exact .cons (next_of_property hopens hcloses depth) (ih depth)
  | block hopens _ hcloses _ ihcontent ihrest =>
    have hclosed := next_of_closesBlock hcloses (depth + 1)
    rw [if_neg (Nat.succ_ne_zero depth)] at hclosed
    exact .cons (next_of_opensBlock hopens (depth + 1))
      ((ihcontent (depth + 1)).append (.cons hclosed (ihrest depth)))

theorem takes_of_isFileHeader {text : List Char} (h : IsFileHeader text) :
    Takes .possible ((statementsOf text).map (·.text)) .done := by
  obtain ⟨version, opening, content, closing, htexts, hversion, hopens, hcontent, hcloses⟩ := h.block
  have hbegun : possible.next version = (inside 0, true) := if_pos hversion
  rw [htexts]
  exact .cons hbegun <| .cons (next_of_opensBlock hopens 0) <|
    (takes_content hcontent 0).append <| .cons (next_of_closesBlock hcloses 0) <| .nil done

end Header

namespace Reading

/-- Statements of a header and comments without directives change nothing but the state of the header. -/
theorem foldl_item_of_takes {reading : Reading} {header : Header} {items : List LineItem}
    (htakes : reading.header.Takes ((items.filterMap (·.statement?)).map (·.text)) header)
    (hplain : ∀ comment ∈ items.filterMap (·.comment?), directive? comment.text = none) :
    items.foldl Reading.item reading = { reading with header } := by
  induction items generalizing reading with
  | nil =>
    cases htakes
    rfl
  | cons item rest ih =>
    rw [List.foldl_cons]
    cases item with
    | comment segment =>
      have hsegment : directive? segment.text = none := hplain segment List.mem_cons_self
      have hsame : reading.item (.comment segment) = reading := by
        rw [Reading.item, Reading.comment, hsegment]
      rw [hsame]
      exact ih htakes fun comment hcomment ↦ hplain comment (List.mem_cons_of_mem _ hcomment)
    | statement segment =>
      cases htakes with
      | @cons _ later _ _ _ hnext hrest =>
        have hstatement : reading.item (.statement segment) = { reading with header := later } := by
          rw [Reading.item, Reading.statement, hnext]
          rfl
        rw [hstatement]
        exact ih hrest hplain

/-- Both texts are read from the same start. -/
theorem movesTo_start (insertion : Insertion) (component : String) (left right : List Char) :
    (start component left).MovesTo insertion (start component right) := by
  have hroot : (SyntaxTree.ofRoot component (moduleSelection left)).MovesTo insertion
      (.ofRoot component (moduleSelection right)) := by
    refine ⟨rfl, fun {id node} hnode ↦ ?_⟩
    obtain ⟨hid, rfl⟩ := Array.getElem?_eq_some_iff.1 hnode
    obtain rfl : id = 0 := Nat.lt_one_iff.1 hid
    exact ⟨moduleSelection right, rfl, fun hne ↦ absurd rfl hne⟩
  have hsections := (hroot.addChild 0 .moduleDeclarations Selection.movesTo_unset "").addChild 0 .moduleBody
    Selection.movesTo_unset ""
  exact ⟨hsections, rfl, rfl, rfl, rfl⟩

end Reading

/-- Annotations stand on lines of the text. -/
theorem isCounted_of_mem_annotations {component text : String} {note : Annotation}
    (h : note ∈ (readModule component text).annotations) : note.selection.IsCounted := by
  obtain ⟨segment, hsegment, -, hplace⟩ := exists_comment_of_mem_annotations component text h
  obtain ⟨item, hitem, hcomment⟩ := List.mem_filterMap.1 hsegment
  rw [LineItem.comment?_eq_some_iff.1 hcomment] at hitem
  rw [hplace]
  exact isCounted_of_mem_lineItems hitem

/-- The header of a file is skipped. Code behind a header is read as if it stood alone, unless its first
statement could begin a header itself. All nodes are the same: their numbers, kinds, texts and links. Every
range that is set, but for that of the root, is further down by the number of lines of the header. The
annotations are the same, with the same targets. -/
theorem file_headers_are_skipped (component : String) {header code : String}
    (hheader : IsFileHeader (header ++ "\n").toList)
    (hcode : ∀ statement ∈ (statementsOf code.toList).head?,
      "version ".toList.isPrefixOf (lowerAscii statement.text) = false) :
    let count := (physicalLines (header ++ "\n").toList).length
    let alone := readModule component code
    let full := readModule component (header ++ "\n" ++ code)
    full.tree.size = alone.tree.size ∧
      (∀ id node, alone.tree.node? id = some node → ∃ selection,
        full.tree.node? id = some { node with selection } ∧
          (id ≠ 0 → selection = if node.selection = .unset then .unset else node.selection.down count)) ∧
      full.annotations = alone.annotations.map fun note ↦
        { note with selection := note.selection.down count } := by
  intro count alone full
  have hitems : lineItems (header ++ "\n" ++ code).toList =
      lineItems (header ++ "\n").toList ++ (lineItems code.toList).map (·.moved ⟨0, count⟩) := by
    rw [String.toList_append]
    exact hheader.lineItems_append code.toList
  have htakes : (Reading.start component (header ++ "\n" ++ code).toList).header.Takes _ .done :=
    Header.takes_of_isFileHeader hheader
  have hread := Reading.foldl_item_of_takes htakes hheader.plain
  have hstart := Reading.movesTo_start ⟨0, count⟩ component code.toList
    (header ++ "\n" ++ code).toList
  have hbehind : (Reading.start component code.toList).MovesTo ⟨0, count⟩
      { Reading.start component (header ++ "\n" ++ code).toList with header := .done } :=
    ⟨hstart.tree, hstart.procedure, hstart.typeBlock, hstart.pending, hstart.annotations⟩
  have hmoves : ((lineItems code.toList).foldl Reading.item (.start component code.toList)).MovesTo
      ⟨0, count⟩ ((lineItems (header ++ "\n" ++ code).toList).foldl Reading.item
        (.start component (header ++ "\n" ++ code).toList)) := by
    rw [hitems, List.foldl_append, hread]
    refine hbehind.foldl_item (Reading.measured_start component code.toList) _
      (fun item ↦ isCounted_of_mem_lineItems) ?_
    intro statement hstatement
    exact if_neg (by rw [hcode statement hstatement]; decide)
  refine ⟨hmoves.tree.size_eq.symm, fun id node hnode ↦ ?_, ?_⟩
  · obtain ⟨selection, hnode', hselection⟩ := hmoves.tree.node? hnode
    exact ⟨selection, hnode', fun hid ↦ (hselection hid).eq_down⟩
  · refine hmoves.annotations.trans (List.map_congr_left fun note hnote ↦ ?_)
    rw [ Annotation.moved, (isCounted_of_mem_annotations hnote).moved_eq_down]

/-- The header of a form with a label on it. -/
def formHeader : String :=
  "VERSION 5.00\nBegin VB.Form Ledger\n    Caption = 1\n    Begin VB.Label Total\n    End\nEnd"

def formCode : String := "Option Explicit\nSub Refresh()\n    Total = 1\nEnd Sub\n"

theorem isFileHeader_formHeader : IsFileHeader (formHeader ++ "\n").toList where
  toEndsLine := .of_getLast? (by decide +kernel) (by decide +kernel)
  plain := by decide +kernel
  block := by
    refine ⟨"VERSION 5.00".toList, "Begin VB.Form Ledger".toList,
      ["Caption = 1".toList, "Begin VB.Label Total".toList, "End".toList], "End".toList,
      by decide +kernel, by decide, by decide, ?_, by decide⟩
    exact .property (by decide) (by decide) (.block (by decide) .nil (by decide) .nil)

theorem form_header_is_skipped :
    IsFileHeader (formHeader ++ "\n").toList ∧
      (∀ statement ∈ (statementsOf formCode.toList).head?,
        "version ".toList.isPrefixOf (lowerAscii statement.text) = false) ∧
      (readModule "Ledger" (formHeader ++ "\n" ++ formCode)).tree.size =
        (readModule "Ledger" formCode).tree.size ∧
      (((readModule "Ledger" (formHeader ++ "\n" ++ formCode)).tree.node? 4).map fun node ↦
        (node.kind, node.text, node.selection)) =
          some (.optionExplicitStmt, "Option Explicit", ⟨7, 1, 7, 15⟩) := by
  have hcode : ∀ statement ∈ (statementsOf formCode.toList).head?,
      "version ".toList.isPrefixOf (lowerAscii statement.text) = false := by decide +kernel
  obtain ⟨hsize, hnodes, -⟩ := file_headers_are_skipped "Ledger" isFileHeader_formHeader hcode
  have hoption : (((readModule "Ledger" formCode).tree.node? 4).map fun node ↦
      (node.kind, node.text, node.selection)) =
        some (.optionExplicitStmt, "Option Explicit", ⟨1, 1, 1, 15⟩) := by decide +kernel
  have hcount : (physicalLines (formHeader ++ "\n").toList).length = 6 := by decide +kernel
  obtain ⟨node, hnode, hfields⟩ := Option.map_eq_some_iff.1 hoption
  obtain ⟨hkind, htext, hplace⟩ : node.kind = _ ∧ node.text = _ ∧ node.selection = _ := by
    simpa using hfields
  obtain ⟨selection, hnode', hselection⟩ := hnodes 4 node hnode
  refine ⟨isFileHeader_formHeader, hcode, hsize, ?_⟩
  rw [hnode', hselection (by decide), hplace, hcount, Option.map_some, hkind, htext]
  rfl

end VbaLint
