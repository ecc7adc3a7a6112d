import VbaLint.Proofs.Module.Holders
import VbaLint.Proofs.Source.Hulls

/-!
# Ranges of sections, members and elements

While a module is read, the ranges of the nodes that hold statements are widened line by line. What they
cover is settled when a member or a block ends. If the text ends before that, the body has taken in no more
than the header of the open member, and the element of an open block no more than its first line. A block in
a member counts for the declarations, where it does not stand, and not for the member.
-/

namespace VbaLint

open Source Statement Text Tree

namespace Tree.SyntaxTree

variable {tree grown : SyntaxTree} {id parent holder : Nat}

/-- A child is added to its parent and to no other node. -/
theorem parent?_addChild (hparent : parent < tree.size) (kind : NodeKind) (selection : Selection)
    (text : String) (id : Nat) :
    (tree.addChild parent kind selection text).parent? id =
      if id = tree.size then some parent else tree.parent? id := by
  split
  · next heq =>
    rw [heq, parent?_eq_bare?, bare?_addChild_self hparent]
    rfl
  · next hne =>
    by_cases hlt : id < tree.size
    · rw [parent?_eq_bare?, bare?_addChild_of_lt hlt, ← parent?_eq_bare?]
    · have hnone {other : SyntaxTree} (hsize : other.size ≤ id) : other.parent? id = none := by
        cases hup : other.parent? id with
        | none => rfl
        | some up => exact absurd (lt_of_mem_children (mem_children.2 hup)).2 (Nat.not_lt.2 hsize)
      rw [hnone (Nat.not_lt.1 hlt), hnone]
      rw [size_addChild]
      omega

theorem lt_size_of_parent? (h : tree.parent? id = some parent) : id < tree.size :=
  (lt_of_mem_children (mem_children.2 h)).2

/-- A node of a tree with parts added is an old one, or it stands below a part. -/
theorem AddsParts.parent?_cases {start : Nat} (h : AddsParts start tree grown)
    (hid : grown.parent? id = some parent) :
    id < tree.size ∧ tree.parent? id = some parent ∨
      start ≤ parent ∧ ∃ kind, grown.kind? parent = some kind ∧ kind.holdsStatements = false := by
  induction h with
  | refl => exact .inl ⟨lt_size_of_parent? hid, hid⟩
  | @add grown above earlier below kind selection text ih =>
    obtain ⟨hstart, known, hknown, hholds⟩ := below
    rw [parent?_addChild (lt_size_of_kind? hknown)] at hid
    split at hid
    · cases hid
      refine .inr ⟨hstart, known, ?_, hholds⟩
      rwa [kind?_addChild_of_lt (lt_size_of_kind? hknown)]
    · refine (ih hid).imp_right ?_
      rintro ⟨hle, known, hknown, hholds⟩
      exact ⟨hle, known, by rwa [kind?_addChild_of_lt (lt_size_of_kind? hknown)], hholds⟩

/-- Where a statement is laid out below `holder`, only its node is new below a node that was there or that
holds statements. -/
theorem parent?_laidOut {kind : NodeKind} {selection : Selection} {text : String}
    (hholder : holder < tree.size)
    (hparts : AddsParts tree.size (tree.addChild holder kind selection text) grown)
    (hid : grown.parent? id = some parent) :
    id < tree.size ∧ tree.parent? id = some parent ∨ id = tree.size ∧ parent = holder ∨
      tree.size ≤ parent ∧ ∃ kind, grown.kind? parent = some kind ∧ kind.holdsStatements = false := by
  rcases hparts.parent?_cases hid with ⟨hlt, hold⟩ | hpart
  · rw [parent?_addChild hholder] at hold
    split at hold
    · next heq =>
      cases hold
      exact .inr (.inl ⟨heq, rfl⟩)
    · rw [size_addChild] at hlt
      exact .inl ⟨by omega, hold⟩
  · exact .inr (.inr hpart)

/-- What holds a node is told by its parent. -/
theorem holderKind?_of_parent {kind : NodeKind} (hparent : tree.parent? id = some parent)
    (hkind : tree.kind? parent = some kind) : tree.holderKind? id = some kind :=
  holderKind?_eq_some_iff.2 ⟨parent, hparent, hkind⟩

end Tree.SyntaxTree

namespace Reading

variable {tree grown : SyntaxTree} {id other : Nat} {selection : Selection}

/-! ## Ranges of nodes -/

/-- The range of a node does not depend on its children. -/
theorem selectionOf_eq_bare? (tree : SyntaxTree) (id : Nat) :
    selectionOf tree id = ((tree.bare? id).map (·.selection)).getD .unset := by
  rw [selectionOf, SyntaxTree.bare?, Option.map_map]
  rfl

theorem selectionOf_of_bare?_eq (h : grown.bare? id = tree.bare? id) :
    selectionOf grown id = selectionOf tree id := by
  rw [selectionOf_eq_bare?, h, ← selectionOf_eq_bare?]

/-- Widening one node leaves the ranges of the others. -/
theorem selectionOf_widen_of_ne (hne : id ≠ other) (selection : Selection) :
    selectionOf (tree.widen id selection) other = selectionOf tree other :=
  selectionOf_of_bare?_eq (by rw [SyntaxTree.bare?_widen, if_neg hne])

theorem selectionOf_widen_self (h : id < tree.size) (selection : Selection) :
    selectionOf (tree.widen id selection) id = (selectionOf tree id).widen selection := by
  obtain ⟨node, hnode⟩ := Option.isSome_iff_exists.1 (SyntaxTree.isSome_bare?_iff.2 h)
  rw [selectionOf_eq_bare?, SyntaxTree.bare?_widen, if_pos rfl, hnode, selectionOf_eq_bare?, hnode]
  rfl

theorem lt_size_of_isPlaced (h : (selectionOf tree id).IsPlaced) : id < tree.size := by
  by_contra hlt
  have hnone : tree.bare? id = none := by
    rw [← Option.not_isSome_iff_eq_none, SyntaxTree.isSome_bare?_iff]
    exact hlt
  rw [selectionOf_eq_bare?, hnone] at h
  exact h rfl

/-- Widening makes no range narrower. -/
theorem within_selectionOf_widen {inner : Selection} (h : inner.Within (selectionOf tree other))
    (hplaced : (selectionOf tree other).IsPlaced) (id : Nat) (selection : Selection) :
    inner.Within (selectionOf (tree.widen id selection) other) := by
  by_cases heq : id = other
  · subst heq
    rw [selectionOf_widen_self (lt_size_of_isPlaced hplaced)]
    exact h.widen hplaced selection
  · rwa [selectionOf_widen_of_ne heq]

theorem isPlaced_selectionOf_widen (hplaced : (selectionOf tree other).IsPlaced) (id : Nat)
    (hselection : selection.IsPlaced) : (selectionOf (tree.widen id selection) other).IsPlaced := by
  by_cases heq : id = other
  · subst heq
    rw [selectionOf_widen_self (lt_size_of_isPlaced hplaced)]
    exact hselection.widen (.inr hplaced)
  · rwa [selectionOf_widen_of_ne heq]

/-! ## What the sections take in -/

def members (tree : SyntaxTree) : Set Nat := {id | tree.parent? id = some body}

/-- The range of the node as far as the body has taken it in: of the open member that is the place of its
header. -/
def takenIn (tree : SyntaxTree) (procedure : Option OpenProcedure) (place : Nat → Selection)
    (id : Nat) : Selection :=
  if procedure.map (·.node) = some id then place id else selectionOf tree id

/-- The nodes whose ranges the declarations take in: the elements, and blocks that are not open any more
and stand in members. -/
def shown (tree : SyntaxTree) (typeBlock : Option Nat) : Set Nat :=
  {id | tree.parent? id = some declarations ∨
    tree.holderKind? id = some .block ∧ (tree.kind? id).any (·.spansLines) = true ∧
      typeBlock ≠ some id}

/-- The sections, the open member, the elements and the open block stand where they belong. -/
structure Framed (tree : SyntaxTree) (procedure : Option OpenProcedure) (typeBlock : Option Nat) :
    Prop where
  stands : Stands tree procedure typeBlock
  root_kind : tree.kind? 0 = some .module
  declarations_parent : tree.parent? declarations = some 0
  body_parent : tree.parent? body = some 0
  opened_parent {opened : OpenProcedure} : procedure = some opened →
    tree.parent? opened.block = some opened.node ∧ tree.parent? opened.node = some body
  opened_last {opened : OpenProcedure} : procedure = some opened →
    ∀ member, tree.parent? member = some body → member ≤ opened.node
  element_kind {element : Nat} : tree.parent? element = some declarations →
    tree.kind? element = some .moduleDeclarationsElement
  element_single {element id other : Nat} : tree.parent? element = some declarations →
    tree.parent? id = some element → tree.parent? other = some element → id = other
  block_holder {block : Nat} : typeBlock = some block →
    ∃ holder, tree.parent? block = some holder ∧ (tree.parent? holder = some declarations ∨
      ∃ opened, procedure = some opened ∧ holder = opened.block)

/-- The nodes below sections, elements and blocks have ranges, and those of statements and members take in
the places of the statements that they stand for or hold. -/
structure Covered (tree : SyntaxTree) (procedure : Option OpenProcedure) (typeBlock : Option Nat)
    (place : Nat → Selection) : Prop extends Framed tree procedure typeBlock where
  place_isPlaced (id : Nat) : (place id).IsPlaced
  isPlaced {id : Nat} : tree.isStatement id = true ∨ tree.parent? id = some declarations →
    (selectionOf tree id).IsPlaced
  inside {id : Nat} : tree.isStatement id = true → (place id).Within (selectionOf tree id)
  member_covers {member block id : Nat} : tree.parent? member = some body →
    tree.parent? block = some member → tree.kind? block = some .block →
      tree.parent? id = some block → (place id).Within (selectionOf tree member)

/-- The ranges of the sections and of the elements agree with what they hold, where `place` tells the
place of the statement that a node stands for. -/
structure Ranged (tree : SyntaxTree) (procedure : Option OpenProcedure) (typeBlock : Option Nat)
    (place : Nat → Selection) : Prop extends Covered tree procedure typeBlock place where
  body_hull : (selectionOf tree body).IsHull (members tree) (takenIn tree procedure place)
  declarations_hull : (selectionOf tree declarations).IsHull (shown tree typeBlock) (selectionOf tree)
  element_range {element id : Nat} : tree.parent? element = some declarations →
    tree.parent? id = some element →
      selectionOf tree element = if typeBlock = some id then place id else selectionOf tree id

variable {procedure : Option OpenProcedure} {typeBlock : Option Nat} {place : Nat → Selection}

/-- Widening a node leaves everything where it belongs. -/
theorem Framed.widen (h : Framed tree procedure typeBlock) (id : Nat) (selection : Selection) :
    Framed (tree.widen id selection) procedure typeBlock where
  stands := h.stands.widen id selection
  root_kind := by rw [SyntaxTree.kind?_widen, h.root_kind]
  declarations_parent := by rw [SyntaxTree.parent?_widen, h.declarations_parent]
  body_parent := by rw [SyntaxTree.parent?_widen, h.body_parent]
  opened_parent := by
    simp only [SyntaxTree.parent?_widen]
    exact h.opened_parent
  opened_last := by
    simp only [SyntaxTree.parent?_widen]
    exact h.opened_last
  element_kind := by
    simp only [SyntaxTree.parent?_widen, SyntaxTree.kind?_widen]
    exact h.element_kind
  element_single := by
    simp only [SyntaxTree.parent?_widen]
    exact h.element_single
  block_holder := by
    simp only [SyntaxTree.parent?_widen]
    exact h.block_holder

/-- The open member may be left. -/
theorem Framed.withoutProcedure (h : Framed tree procedure none) : Framed tree none none :=
  { h with
    stands := h.stands.withoutProcedure
    opened_parent := nofun
    opened_last := nofun
    block_holder := nofun }

/-- The open block may be left. -/
theorem Framed.withoutBlock (h : Framed tree procedure typeBlock) : Framed tree procedure none :=
  { h with
    stands := h.stands.withoutBlock
    block_holder := nofun }

theorem Framed.isStatement_member (h : Framed tree procedure typeBlock) {member : Nat}
    (hmember : tree.parent? member = some body) : tree.isStatement member = true :=
  SyntaxTree.isStatement_iff.2 ⟨body, .moduleBody, hmember, h.stands.body_kind, rfl⟩

/-- What does not stand directly below the root is none of the sections. -/
theorem Framed.ne_section (h : Framed tree procedure typeBlock) {above : Nat}
    (hparent : tree.parent? id = some above) (hne : above ≠ 0) : declarations ≠ id ∧ body ≠ id := by
  constructor
  · rintro rfl
    exact hne (Option.some.inj (hparent.symm.trans h.declarations_parent))
  · rintro rfl
    exact hne (Option.some.inj (hparent.symm.trans h.body_parent))

/-- No section is among what the declarations take in. -/
theorem Framed.ne_section_of_shown (h : Framed tree procedure typeBlock) {open? : Option Nat}
    (hid : id ∈ shown tree open?) : declarations ≠ id ∧ body ≠ id := by
  rcases hid with hparent | ⟨hholder, -⟩
  · exact h.ne_section hparent (by decide)
  · obtain ⟨above, hparent, hkind⟩ := SyntaxTree.holderKind?_eq_some_iff.1 hholder
    refine h.ne_section hparent ?_
    rintro rfl
    cases h.root_kind.symm.trans hkind

/-- Neither an element nor what stands in it is a section. -/
theorem Framed.ne_section_of_element (h : Framed tree procedure typeBlock) {element : Nat}
    (helement : tree.parent? element = some declarations) (hid : tree.parent? id = some element) :
    (declarations ≠ element ∧ body ≠ element) ∧ declarations ≠ id ∧ body ≠ id := by
  refine ⟨h.ne_section helement (by decide), h.ne_section hid ?_⟩
  rintro rfl
  exact absurd (SyntaxTree.parent_lt helement) (Nat.not_lt_zero _)

@[simp]
theorem takenIn_none (tree : SyntaxTree) (place : Nat → Selection) (id : Nat) :
    takenIn tree none place id = selectionOf tree id := if_neg nofun

@[simp]
theorem takenIn_self (tree : SyntaxTree) (opened : OpenProcedure) (place : Nat → Selection) :
    takenIn tree (some opened) place opened.node = place opened.node := if_pos rfl

/-- All nodes but the open member are taken in with their ranges. -/
theorem takenIn_of_ne {opened : OpenProcedure} (hne : id ≠ opened.node) (tree : SyntaxTree)
    (place : Nat → Selection) : takenIn tree (some opened) place id = selectionOf tree id :=
  if_neg fun heq ↦ hne (Option.some.inj heq).symm

theorem takenIn_widen_of_ne (hne : id ≠ other) (selection : Selection) (place : Nat → Selection) :
    takenIn (tree.widen id selection) procedure place other = takenIn tree procedure place other := by
  rw [takenIn, takenIn, selectionOf_widen_of_ne hne]

@[simp]
theorem members_widen (tree : SyntaxTree) (id : Nat) (selection : Selection) :
    members (tree.widen id selection) = members tree := by
  simp only [members, SyntaxTree.parent?_widen]

@[simp]
theorem shown_widen (tree : SyntaxTree) (typeBlock : Option Nat) (id : Nat) (selection : Selection) :
    shown (tree.widen id selection) typeBlock = shown tree typeBlock := by
  simp only [shown, SyntaxTree.parent?_widen, SyntaxTree.kind?_widen, SyntaxTree.holderKind?_widen]

namespace Covered

/-- Ranges that are widened take in what they did. -/
theorem widen (h : Covered tree procedure typeBlock place) (id : Nat) (hselection : selection.IsPlaced) :
    Covered (tree.widen id selection) procedure typeBlock place where
  toFramed := h.toFramed.widen id selection
  place_isPlaced := h.place_isPlaced
  isPlaced hin := by
    rw [SyntaxTree.isStatement_widen, SyntaxTree.parent?_widen] at hin
    exact isPlaced_selectionOf_widen (h.isPlaced hin) id hselection
  inside hstatement := by
    rw [SyntaxTree.isStatement_widen] at hstatement
    exact within_selectionOf_widen (h.inside hstatement) (h.isPlaced (.inl hstatement)) id selection
  member_covers hmember hblock hkind hid := by
    simp only [SyntaxTree.parent?_widen, SyntaxTree.kind?_widen] at hmember hblock hkind hid
    exact within_selectionOf_widen (h.member_covers hmember hblock hkind hid)
      (h.isPlaced (.inl (h.isStatement_member hmember))) id selection

theorem withoutProcedure (h : Covered tree procedure none place) : Covered tree none none place :=
  { h with toFramed := h.toFramed.withoutProcedure }

theorem withoutBlock (h : Covered tree procedure typeBlock place) : Covered tree procedure none place :=
  { h with toFramed := h.toFramed.withoutBlock }

/-- Members have ranges with a place. -/
theorem isPlaced_member (h : Covered tree procedure typeBlock place) {member : Nat}
    (hmember : tree.parent? member = some body) : (selectionOf tree member).IsPlaced :=
  h.isPlaced (.inl (h.isStatement_member hmember))

theorem isPlaced_takenIn (h : Covered tree procedure typeBlock place) {member : Nat}
    (hmember : tree.parent? member = some body) : (takenIn tree procedure place member).IsPlaced := by
  rw [takenIn]
  split
  · exact h.place_isPlaced member
  · exact h.isPlaced_member hmember

end Covered

namespace Ranged

/-- Where a node is widened that neither section has taken in, the ranges go on to agree. -/
theorem widen (h : Ranged tree procedure typeBlock place) (hselection : selection.IsPlaced)
    (hdeclarations : id ≠ declarations) (hbody : id ≠ body)
    (hmember : tree.parent? id = some body → procedure.map (·.node) = some id)
    (helement : tree.parent? id ≠ some declarations)
    (hblock : typeBlock = some id ∨ tree.holderKind? id ≠ some .block ∧
      ∀ element, tree.parent? id = some element → tree.parent? element ≠ some declarations) :
    Ranged (tree.widen id selection) procedure typeBlock place where
  toCovered := h.toCovered.widen id hselection
  body_hull := by
    rw [members_widen, selectionOf_widen_of_ne hbody]
    refine h.body_hull.congr fun member hin ↦ ?_
    rw [takenIn, takenIn]
    split
    · rfl
    · next hclosed =>
      refine selectionOf_widen_of_ne ?_ selection
      rintro rfl
      exact hclosed (hmember hin)
  declarations_hull := by
    rw [shown_widen, selectionOf_widen_of_ne hdeclarations]
    refine h.declarations_hull.congr fun other hother ↦ selectionOf_widen_of_ne ?_ selection
    rintro rfl
    rcases hother with hother | ⟨hholder, -, hclosed⟩
    · exact helement hother
    · exact hblock.elim hclosed fun hfree ↦ hfree.1 hholder
  element_range {element other} hin hother := by
    rw [SyntaxTree.parent?_widen] at hin hother
    have hne : id ≠ element := by
      rintro rfl
      exact helement hin
    rw [selectionOf_widen_of_ne hne, h.element_range hin hother]
    split
    · rfl
    · next hclosed =>
      refine (selectionOf_widen_of_ne ?_ selection).symm
      rintro rfl
      exact hblock.elim hclosed fun hfree ↦ hfree.2 element hother hin

/-! ### Members -/

variable {opened : OpenProcedure}

/-- The range of the open member can be widened. -/
theorem widenMember (h : Ranged tree (some opened) typeBlock place) (hselection : selection.IsPlaced) :
    Ranged (tree.widen opened.node selection) (some opened) typeBlock place := by
  obtain ⟨-, hnode⟩ := h.opened_parent rfl
  refine h.widen hselection ?_ ?_ (fun _ ↦ rfl) ?_ (.inr ⟨?_, ?_⟩)
  · rintro heq
    rw [heq, h.declarations_parent] at hnode
    cases hnode
  · rintro heq
    rw [heq, h.body_parent] at hnode
    cases hnode
  · rw [hnode]
    exact fun heq ↦ absurd (Option.some.inj heq) (by decide)
  · rw [SyntaxTree.holderKind?_of_parent hnode h.stands.body_kind]
    exact nofun
  · rintro element helement
    cases hnode.symm.trans helement
    rw [h.body_parent]
    exact nofun

/-- So can the range of its block, which no other range takes in. -/
theorem widenBlock (h : Ranged tree (some opened) typeBlock place) (hselection : selection.IsPlaced) :
    Ranged (tree.widen opened.block selection) (some opened) typeBlock place := by
  obtain ⟨hblock, hnode⟩ := h.opened_parent rfl
  obtain ⟨hkind, kind, hmember, hprocedure⟩ := h.stands.procedure_kind rfl
  have hapart {other : Nat} {known : NodeKind} (hother : tree.kind? other = some known)
      (hplain : known.isProcedure = false) : opened.node ≠ other := by
    rintro rfl
    cases hmember.symm.trans hother
    rw [hprocedure] at hplain
    cases hplain
  refine h.widen hselection ?_ ?_ ?_ ?_ (.inr ⟨?_, ?_⟩)
  · rintro heq
    cases (heq ▸ hkind).symm.trans h.stands.declarations_kind
  · rintro heq
    cases (heq ▸ hkind).symm.trans h.stands.body_kind
  · rw [hblock]
    exact fun heq ↦ absurd (Option.some.inj heq) (hapart h.stands.body_kind rfl)
  · rw [hblock]
    exact fun heq ↦ absurd (Option.some.inj heq) (hapart h.stands.declarations_kind rfl)
  · rw [SyntaxTree.holderKind?_of_parent hblock hmember]
    rintro heq
    cases heq
    cases hprocedure
  · rintro element helement
    cases hblock.symm.trans helement
    rw [hnode]
    exact fun heq ↦ absurd (Option.some.inj heq) (by decide)

/-- When the member is left, the body takes in its range. -/
theorem close (h : Ranged tree (some opened) none place) :
    Ranged (tree.widen body (selectionOf tree opened.node)) none none place := by
  obtain ⟨-, hnode⟩ := h.opened_parent rfl
  have hplaced := h.isPlaced_member hnode
  have hstatement := h.isStatement_member hnode
  refine
    { toCovered := (h.toCovered.widen body hplaced).withoutProcedure
      body_hull := ?_
      declarations_hull := ?_
      element_range := fun {element other} hin hother ↦ ?_ }
  · have hlt := SyntaxTree.lt_size_of_kind? h.stands.body_kind
    have hrange {member : Nat} (hmember : member ∈ members tree) :
        takenIn (tree.widen body (selectionOf tree opened.node)) none place member =
          selectionOf tree member := by
      rw [takenIn_none, selectionOf_widen_of_ne (h.ne_section hmember (by decide)).2]
    have hhull := h.body_hull.widen (fun member ↦ h.isPlaced_takenIn)
      (takenIn (tree.widen body (selectionOf tree opened.node)) none place) opened.node
      (fun member hmember hne ↦ by rw [hrange hmember, takenIn_of_ne hne])
      (fun _ ↦ by rw [hrange hnode, takenIn_self]; exact h.inside hstatement)
    rw [hrange hnode, Set.insert_eq_of_mem (show opened.node ∈ members tree from hnode)] at hhull
    rw [members_widen, selectionOf_widen_self hlt]
    exact hhull
  · rw [shown_widen, selectionOf_widen_of_ne (by decide)]
    exact h.declarations_hull.congr fun other hother ↦
      selectionOf_widen_of_ne (h.ne_section_of_shown hother).2 _
  · rw [SyntaxTree.parent?_widen] at hin hother
    obtain ⟨⟨-, helement⟩, -, hne⟩ := h.ne_section_of_element hin hother
    rw [selectionOf_widen_of_ne helement, h.element_range hin hother, selectionOf_widen_of_ne hne]

/-! ### Blocks -/

variable {block holder : Nat}

/-- The node of an open block is none of the sections. -/
theorem block_ne (h : Ranged tree procedure (some block) place) :
    block ≠ declarations ∧ block ≠ body := by
  obtain ⟨-, kind, hkind, hspans⟩ := h.stands.block_kind rfl
  constructor
  · rintro rfl
    cases h.stands.declarations_kind.symm.trans hkind
    cases hspans
  · rintro rfl
    cases h.stands.body_kind.symm.trans hkind
    cases hspans

/-- Nor does it stand directly below one of them. -/
theorem holder_ne (h : Ranged tree procedure (some block) place)
    (hholder : tree.parent? block = some holder) : holder ≠ declarations ∧ holder ≠ body := by
  obtain ⟨holder', hparent, hplace⟩ := h.block_holder rfl
  cases hholder.symm.trans hparent
  rcases hplace with helement | ⟨opened, hopened, rfl⟩
  · constructor
    · rintro rfl
      rw [h.declarations_parent] at helement
      cases helement
    · rintro rfl
      rw [h.body_parent] at helement
      cases helement
  · obtain ⟨hkind, -⟩ := h.stands.procedure_kind hopened
    constructor
    · intro heq
      cases (heq ▸ hkind).symm.trans h.stands.declarations_kind
    · intro heq
      cases (heq ▸ hkind).symm.trans h.stands.body_kind

/-- The range of an open block can be widened. -/
theorem widenTypeBlock (h : Ranged tree procedure (some block) place)
    (hselection : selection.IsPlaced) :
    Ranged (tree.widen block selection) procedure (some block) place := by
  obtain ⟨holder, hholder, -⟩ := h.block_holder rfl
  obtain ⟨hdeclarations, hbody⟩ := h.holder_ne hholder
  refine h.widen hselection h.block_ne.1 h.block_ne.2 ?_ ?_ (.inl rfl)
  · rw [hholder]
    exact fun heq ↦ absurd (Option.some.inj heq) hbody
  · rw [hholder]
    exact fun heq ↦ hdeclarations (Option.some.inj heq)

/-- What the declarations take in has a place. -/
theorem isPlaced_shown (h : Ranged tree procedure typeBlock place) (hid : id ∈ shown tree typeBlock) :
    (selectionOf tree id).IsPlaced := by
  rcases hid with hparent | ⟨hholder, -⟩
  · exact h.isPlaced (.inr hparent)
  · exact h.isPlaced (.inl (by rw [SyntaxTree.isStatement, ← SyntaxTree.holderKind?, hholder]; rfl))

theorem isPlaced_block (h : Ranged tree procedure (some block) place) :
    (selectionOf tree block).IsPlaced := by
  obtain ⟨hstatement, -⟩ := h.stands.block_kind rfl
  exact h.isPlaced (.inl hstatement)

/-- When a block ends in an element, the element and the declarations take in its range. -/
theorem endBlock_of_element (h : Ranged tree procedure (some block) place)
    (hholder : tree.parent? block = some holder) (helement : tree.parent? holder = some declarations) :
    Ranged ((tree.widen holder (selectionOf tree block)).widen declarations (selectionOf tree block))
      procedure none place := by
  have hplaced := h.isPlaced_block
  obtain ⟨hstatement, -⟩ := h.stands.block_kind rfl
  obtain ⟨⟨hholder₁, hholder₂⟩, hblock₁, hblock₂⟩ := h.ne_section_of_element helement hholder
  have hne : holder ≠ block := (SyntaxTree.parent_lt hholder).ne
  have hplace : selectionOf tree holder = place block := by
    rw [h.element_range helement hholder, if_pos rfl]
  have hrange {other : Nat} (hfirst : holder ≠ other) (hsecond : declarations ≠ other) :
      selectionOf ((tree.widen holder (selectionOf tree block)).widen declarations
        (selectionOf tree block)) other = selectionOf tree other := by
    rw [selectionOf_widen_of_ne hsecond, selectionOf_widen_of_ne hfirst]
  have hgrown : selectionOf ((tree.widen holder (selectionOf tree block)).widen declarations
      (selectionOf tree block)) holder = selectionOf tree block := by
    rw [selectionOf_widen_of_ne hholder₁, selectionOf_widen_self, hplace]
    · exact (h.inside hstatement).widen_eq (h.place_isPlaced block)
    · exact SyntaxTree.lt_size_of_parent? helement
  have hsame : shown tree none = shown tree (some block) := by
    ext id
    refine or_congr_right (and_congr_right fun hin ↦ and_congr_right fun _ ↦ ?_)
    refine iff_of_true nofun ?_
    rintro ⟨⟩
    rw [SyntaxTree.holderKind?_of_parent hholder (h.element_kind helement)] at hin
    cases hin
  refine
    { toCovered := ((h.toCovered.widen holder hplaced).widen declarations hplaced).withoutBlock
      body_hull := ?_
      declarations_hull := ?_
      element_range := fun {element other} hin hother ↦ ?_ }
  · rw [members_widen, members_widen, hrange hholder₂.symm (by decide)]
    refine h.body_hull.congr fun member hmember ↦ ?_
    rw [takenIn_widen_of_ne (h.ne_section hmember (by decide)).1, takenIn_widen_of_ne]
    rintro rfl
    exact absurd (Option.some.inj (helement.symm.trans hmember)) (by decide)
  · have hhull := h.declarations_hull.widen (fun _ ↦ h.isPlaced_shown)
      (selectionOf ((tree.widen holder (selectionOf tree block)).widen declarations
        (selectionOf tree block))) holder
      (fun other hother hne ↦ hrange hne.symm (h.ne_section_of_shown hother).1)
      (fun _ ↦ by rw [hgrown, hplace]; exact h.inside hstatement)
    rw [hgrown, Set.insert_eq_of_mem (show holder ∈ shown tree (some block) from .inl helement)]
      at hhull
    rw [shown_widen, shown_widen, hsame, selectionOf_widen_self, selectionOf_widen_of_ne hholder₁.symm]
    · exact hhull
    · rw [SyntaxTree.size_widen]
      exact SyntaxTree.lt_size_of_kind? h.stands.declarations_kind
  · rw [SyntaxTree.parent?_widen, SyntaxTree.parent?_widen] at hin hother
    obtain ⟨⟨hne₁, -⟩, hne₂, -⟩ := h.ne_section_of_element hin hother
    rw [if_neg nofun]
    by_cases heq : holder = element
    · subst heq
      cases h.element_single hin hholder hother
      rw [hgrown, hrange hne hblock₁]
    · have hother₁ : holder ≠ other := by
        rintro rfl
        exact hne₁ (Option.some.inj (helement.symm.trans hother))
      have hother₂ : some block ≠ some other := by
        rintro ⟨⟩
        exact heq (Option.some.inj (hholder.symm.trans hother))
      rw [hrange heq hne₁, h.element_range hin hother, if_neg hother₂, hrange hother₁ hne₂]

/-- The declarations take in the range of a block that ends in a member. -/
theorem leaveBlock (h : Ranged tree (some opened) (some block) place)
    (hholder : tree.parent? block = some opened.block) :
    Ranged (tree.widen declarations (selectionOf tree block)) (some opened) none place := by
  have hplaced := h.isPlaced_block
  obtain ⟨-, kind, hkind, hspans⟩ := h.stands.block_kind rfl
  obtain ⟨hmember, -⟩ := h.stands.procedure_kind rfl
  obtain ⟨hopened, hnode⟩ := h.opened_parent rfl
  obtain ⟨hne, hapart⟩ := h.block_ne
  have hshown : shown tree none = insert block (shown tree (some block)) := by
    ext id
    constructor
    · rintro (hparent | ⟨hin, hwide, -⟩)
      · exact .inr (.inl hparent)
      · by_cases heq : id = block
        · exact .inl heq
        · exact .inr (.inr ⟨hin, hwide, fun hsame ↦ heq (Option.some.inj hsame).symm⟩)
    · rintro (rfl | hparent | ⟨hin, hwide, -⟩)
      · refine .inr ⟨SyntaxTree.holderKind?_of_parent hholder hmember, ?_, nofun⟩
        rwa [hkind, Option.any_some]
      · exact .inl hparent
      · exact .inr ⟨hin, hwide, nofun⟩
  refine
    { toCovered := (h.toCovered.widen declarations hplaced).withoutBlock
      body_hull := ?_
      declarations_hull := ?_
      element_range := fun {element other} hin hother ↦ ?_ }
  · rw [members_widen, selectionOf_widen_of_ne (by decide)]
    exact h.body_hull.congr fun member hmember ↦
      takenIn_widen_of_ne (h.ne_section hmember (by decide)).1 _ _
  · have hhull := h.declarations_hull.widen (fun _ ↦ h.isPlaced_shown)
      (selectionOf (tree.widen declarations (selectionOf tree block))) block
      (fun other hother _ ↦ selectionOf_widen_of_ne (h.ne_section_of_shown hother).1 _)
      (fun hblock ↦ absurd hblock ?_)
    · rw [← hshown, selectionOf_widen_of_ne hne.symm] at hhull
      rw [shown_widen, selectionOf_widen_self (SyntaxTree.lt_size_of_kind? h.stands.declarations_kind)]
      exact hhull
    · rintro (hparent | ⟨-, -, hclosed⟩)
      · exact (h.holder_ne hholder).1 (Option.some.inj (hholder.symm.trans hparent))
      · exact hclosed rfl
  · rw [SyntaxTree.parent?_widen] at hin hother
    obtain ⟨⟨hne₁, -⟩, hne₂, -⟩ := h.ne_section_of_element hin hother
    have hother' : some block ≠ some other := by
      rintro ⟨⟩
      cases hholder.symm.trans hother
      rw [Option.some.inj (hopened.symm.trans hin), h.declarations_parent] at hnode
      cases hnode
    rw [if_neg nofun, selectionOf_widen_of_ne hne₁, h.element_range hin hother, if_neg hother',
      selectionOf_widen_of_ne hne₂]

/-- When a block ends in a member, the block of the member and the declarations take in its range. -/
theorem endBlock_of_member (h : Ranged tree (some opened) (some block) place)
    (hholder : tree.parent? block = some opened.block) :
    Ranged ((tree.widen opened.block (selectionOf tree block)).widen declarations
      (selectionOf tree block)) (some opened) none place := by
  have hleft := (h.widenBlock h.isPlaced_block).leaveBlock (by rwa [SyntaxTree.parent?_widen])
  rwa [selectionOf_widen_of_ne (SyntaxTree.parent_lt hholder).ne] at hleft

end Ranged

end Reading

end VbaLint
