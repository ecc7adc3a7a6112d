import VbaLint.Proofs.Module.NodeRanges
import VbaLint.Proofs.Source.Ranges

/-!
# What sections, members and elements cover

Laying out a statement below its holder gives its node the place of the statement and leaves the ranges of
all other nodes alone. With the widening that goes before and after it, the ranges of the sections, members
and elements go on to agree with what they hold, from the start of a text to its end.
-/

namespace VbaLint

open Source Statement Text Tree

namespace Reading

variable {tree grown : SyntaxTree} {procedure : Option OpenProcedure} {place : Nat → Selection}
  {id holder : Nat} {kind : NodeKind} {selection : Selection} {text : String}

/-! ## Laying out -/

/-- A node is laid out below `holder` with what belongs to it. -/
structure LaysOut (tree : SyntaxTree) (holder : Nat) (kind : NodeKind) (selection : Selection)
    (grown : SyntaxTree) : Prop where
  kind?_eq {id : Nat} : id < tree.size → grown.kind? id = tree.kind? id
  selectionOf_eq {id : Nat} : id < tree.size → selectionOf grown id = selectionOf tree id
  kind?_self : grown.kind? tree.size = some kind
  selectionOf_self : selectionOf grown tree.size = selection
  parent?_self : grown.parent? tree.size = some holder
  parent?_eq {id : Nat} : id < tree.size → grown.parent? id = tree.parent? id
  parent?_cases {id parent : Nat} : grown.parent? id = some parent →
    id < tree.size ∧ tree.parent? id = some parent ∨ id = tree.size ∧ parent = holder ∨
      tree.size ≤ parent ∧ ∃ kind, grown.kind? parent = some kind ∧ kind.holdsStatements = false

/-- A node added together with its parts is laid out below its holder. -/
theorem laysOut_of_addsParts (hholder : holder < tree.size)
    (hparts : SyntaxTree.AddsParts tree.size (tree.addChild holder kind selection text) grown) :
    LaysOut tree holder kind selection grown := by
  have hbare {id : Nat} (hid : id < tree.size) : grown.bare? id = tree.bare? id := by
    rw [hparts.bare?_eq (by simp; omega), SyntaxTree.bare?_addChild_of_lt hid]
  have hself : grown.bare? tree.size = some ⟨kind, selection, text, some holder, #[]⟩ := by
    rw [hparts.bare?_eq (by simp), SyntaxTree.bare?_addChild_self hholder]
  exact
    { kind?_eq := fun hid ↦ by rw [SyntaxTree.kind?_eq_bare?, hbare hid, ← SyntaxTree.kind?_eq_bare?]
      selectionOf_eq := fun hid ↦ selectionOf_of_bare?_eq (hbare hid)
      kind?_self := by rw [SyntaxTree.kind?_eq_bare?, hself, Option.map_some]
      selectionOf_self := by rw [selectionOf_eq_bare?, hself, Option.map_some, Option.getD_some]
      parent?_self := by rw [SyntaxTree.parent?_eq_bare?, hself, Option.bind_some]
      parent?_eq := fun hid ↦ by
        rw [SyntaxTree.parent?_eq_bare?, hbare hid, ← SyntaxTree.parent?_eq_bare?]
      parent?_cases := SyntaxTree.parent?_laidOut hholder hparts }

/-- The place of the new node is known besides. -/
def placing (tree : SyntaxTree) (place : Nat → Selection) (selection : Selection) : Nat → Selection :=
  Function.update place tree.size selection

/-- The node that is added next has the place that is given for it. -/
theorem placing_self (tree : SyntaxTree) (place : Nat → Selection) (selection : Selection) :
    placing tree place selection tree.size = selection := Function.update_self ..

theorem placing_of_lt (hid : id < tree.size) (place : Nat → Selection) (selection : Selection) :
    placing tree place selection id = place id := Function.update_of_ne hid.ne ..

namespace LaysOut

variable (hlaid : LaysOut tree holder kind selection grown)
include hlaid

theorem holder_lt : holder < tree.size := SyntaxTree.parent_lt hlaid.parent?_self

/-- Below an older node only the node itself is new. -/
theorem parent?_iff {parent : Nat} (hparent : parent < tree.size) :
    grown.parent? id = some parent ↔
      tree.parent? id = some parent ∨ id = tree.size ∧ parent = holder := by
  constructor
  · intro hid
    rcases hlaid.parent?_cases hid with ⟨-, hold⟩ | hnew | ⟨hle, -⟩
    · exact .inl hold
    · exact .inr hnew
    · exact absurd hparent (Nat.not_lt.2 hle)
  · rintro (hold | ⟨rfl, rfl⟩)
    · rw [hlaid.parent?_eq (SyntaxTree.lt_size_of_parent? hold), hold]
    · exact hlaid.parent?_self

/-- A node that holds statements and has nodes below it is an older one. -/
theorem lt_size_of_holds {parent : Nat} {above : NodeKind} (hid : grown.parent? id = some parent)
    (habove : grown.kind? parent = some above) (hholds : above.holdsStatements = true) :
    parent < tree.size := by
  rcases hlaid.parent?_cases hid with ⟨hlt, hold⟩ | ⟨-, rfl⟩ | ⟨-, known, hknown, hplain⟩
  · exact (SyntaxTree.parent_lt hold).trans hlt
  · exact hlaid.holder_lt
  · cases habove.symm.trans hknown
    rw [hholds] at hplain
    cases hplain

/-- Below nodes that hold statements only the node itself is new. -/
theorem holderKind?_iff {above : NodeKind} (hholds : above.holdsStatements = true) :
    grown.holderKind? id = some above ↔
      tree.holderKind? id = some above ∨ id = tree.size ∧ tree.kind? holder = some above := by
  simp only [SyntaxTree.holderKind?_eq_some_iff]
  constructor
  · rintro ⟨parent, hid, habove⟩
    have hlt := hlaid.lt_size_of_holds hid habove hholds
    rw [hlaid.kind?_eq hlt] at habove
    rcases (hlaid.parent?_iff hlt).1 hid with hold | ⟨rfl, rfl⟩
    · exact .inl ⟨parent, hold, habove⟩
    · exact .inr ⟨rfl, habove⟩
  · rintro (⟨parent, hid, habove⟩ | ⟨rfl, habove⟩)
    · have hlt : parent < tree.size := SyntaxTree.lt_size_of_kind? habove
      exact ⟨parent, (hlaid.parent?_iff hlt).2 (.inl hid), by rw [hlaid.kind?_eq hlt, habove]⟩
    · exact ⟨holder, hlaid.parent?_self, by rw [hlaid.kind?_eq hlaid.holder_lt, habove]⟩

theorem isStatement_cases (hid : grown.isStatement id = true) :
    tree.isStatement id = true ∨ id = tree.size := by
  obtain ⟨parent, above, hparent, habove, hholds⟩ := SyntaxTree.isStatement_iff.1 hid
  have hlt := hlaid.lt_size_of_holds hparent habove hholds
  refine ((hlaid.parent?_iff hlt).1 hparent).imp (fun hold ↦ ?_) (·.1)
  rw [hlaid.kind?_eq hlt] at habove
  exact SyntaxTree.isStatement_iff.2 ⟨parent, above, hold, habove, hholds⟩

theorem mem_shown_iff {typeBlock : Option Nat} (hstands : Stands tree procedure none)
    (hopen : ∀ id ∈ typeBlock, id = tree.size)
    (hspans : tree.kind? holder = some .block → kind.spansLines = true → typeBlock = some tree.size) :
    id ∈ shown grown typeBlock ↔ id ∈ shown tree none ∨ id = tree.size ∧ declarations = holder := by
  have hdeclarations := SyntaxTree.lt_size_of_kind? hstands.declarations_kind
  have hold (hlt : id < tree.size) : (grown.kind? id).any (·.spansLines) = true ∧ typeBlock ≠ some id ↔
      (tree.kind? id).any (·.spansLines) = true ∧ none ≠ some id := by
    rw [hlaid.kind?_eq hlt]
    refine and_congr_right fun _ ↦ iff_of_true (fun hid ↦ ?_) nofun
    exact absurd (hopen id hid) hlt.ne
  constructor
  · rintro (hid | ⟨hid, hwide, hclosed⟩)
    · exact ((hlaid.parent?_iff hdeclarations).1 hid).imp_left .inl
    · rcases (hlaid.holderKind?_iff rfl).1 hid with hid | ⟨rfl, hblock⟩
      · obtain ⟨_, hparent, -⟩ := SyntaxTree.holderKind?_eq_some_iff.1 hid
        exact .inl (.inr ⟨hid, (hold (SyntaxTree.lt_size_of_parent? hparent)).1 ⟨hwide, hclosed⟩⟩)
      · rw [hlaid.kind?_self, Option.any_some] at hwide
        exact absurd (hspans hblock hwide) hclosed
  · rintro ((hid | ⟨hid, hknown⟩) | hnew)
    · exact .inl ((hlaid.parent?_iff hdeclarations).2 (.inl hid))
    · obtain ⟨_, hparent, -⟩ := SyntaxTree.holderKind?_eq_some_iff.1 hid
      exact .inr ⟨(hlaid.holderKind?_iff rfl).2 (.inl hid),
        (hold (SyntaxTree.lt_size_of_parent? hparent)).2 hknown⟩
    · exact .inl ((hlaid.parent?_iff hdeclarations).2 (.inr hnew))

theorem takenIn_eq (hid : id < tree.size) :
    takenIn grown procedure (placing tree place selection) id = takenIn tree procedure place id := by
  rw [takenIn, takenIn, placing_of_lt hid, hlaid.selectionOf_eq hid]

end LaysOut

/-! ### Frames -/

/-- Whatever was open stays open when something is laid out in it. -/
theorem LaysOut.stands (hlaid : LaysOut tree holder kind selection grown)
    (h : Stands tree procedure none) : Stands grown procedure none := by
  refine h.mono (fun id known hknown ↦ ?_) fun id hid ↦ ?_
  · rw [hlaid.kind?_eq (SyntaxTree.lt_size_of_kind? hknown), hknown]
  · obtain ⟨parent, above, hparent, habove, hholds⟩ := SyntaxTree.isStatement_iff.1 hid
    refine SyntaxTree.isStatement_iff.2 ⟨parent, above, ?_, ?_, hholds⟩
    · rw [hlaid.parent?_eq (SyntaxTree.lt_size_of_parent? hparent), hparent]
    · rw [hlaid.kind?_eq (SyntaxTree.lt_size_of_kind? habove), habove]

theorem Framed.laysOut (h : Framed tree procedure none) (hlaid : LaysOut tree holder kind selection grown)
    (helement : holder = declarations → kind = .moduleDeclarationsElement)
    (hmember : holder = body → procedure = none)
    (hempty : tree.parent? holder = some declarations → ∀ id, tree.parent? id ≠ some holder) :
    Framed grown procedure none := by
  have hdeclarations := SyntaxTree.lt_size_of_kind? h.stands.declarations_kind
  have hbody := SyntaxTree.lt_size_of_kind? h.stands.body_kind
  have hkind {element : Nat} (hin : grown.parent? element = some declarations) :
      grown.kind? element = some .moduleDeclarationsElement := by
    rcases (hlaid.parent?_iff hdeclarations).1 hin with hold | ⟨rfl, heq⟩
    · rw [hlaid.kind?_eq (SyntaxTree.lt_size_of_parent? hold), h.element_kind hold]
    · rw [hlaid.kind?_self, helement heq.symm]
  refine
    { stands := hlaid.stands h.stands
      root_kind := by rw [hlaid.kind?_eq tree.size_pos, h.root_kind]
      declarations_parent := by rw [hlaid.parent?_eq hdeclarations, h.declarations_parent]
      body_parent := by rw [hlaid.parent?_eq hbody, h.body_parent]
      opened_parent := fun {opened} hopened ↦ ?_
      opened_last := fun {opened} hopened member hin ↦ ?_
      element_kind := hkind
      element_single := fun {element id other} hin hid hother ↦ ?_
      block_holder := nofun }
  · obtain ⟨hblock, hnode⟩ := h.opened_parent hopened
    rw [hlaid.parent?_eq (SyntaxTree.lt_size_of_parent? hblock),
      hlaid.parent?_eq (SyntaxTree.lt_size_of_parent? hnode)]
    exact ⟨hblock, hnode⟩
  · rcases (hlaid.parent?_iff hbody).1 hin with hold | ⟨rfl, heq⟩
    · exact h.opened_last hopened member hold
    · rw [hmember heq.symm] at hopened
      cases hopened
  · have hlt : element < tree.size := hlaid.lt_size_of_holds hid (hkind hin) rfl
    rw [hlaid.parent?_eq hlt] at hin
    rcases (hlaid.parent?_iff hlt).1 hid with hid | ⟨rfl, rfl⟩
    · rcases (hlaid.parent?_iff hlt).1 hother with hother | ⟨rfl, rfl⟩
      · exact h.element_single hin hid hother
      · exact absurd hid (hempty hin id)
    · rcases (hlaid.parent?_iff hlt).1 hother with hother | ⟨rfl, -⟩
      · exact absurd hother (hempty hin other)
      · rfl

/-- Ranges that take in what they hold go on to do so if the range of a member takes in what is laid out
in its block. -/
theorem Covered.laysOut (h : Covered tree procedure none place)
    (hlaid : LaysOut tree holder kind selection grown) (hframed : Framed grown procedure none)
    (hselection : selection.IsPlaced)
    (hcovers : tree.kind? holder = some .block → ∀ member, tree.parent? holder = some member →
      selection.Within (selectionOf tree member)) :
    Covered grown procedure none (placing tree place selection) := by
  have hbody := SyntaxTree.lt_size_of_kind? h.stands.body_kind
  have hdeclarations := SyntaxTree.lt_size_of_kind? h.stands.declarations_kind
  refine
    { toFramed := hframed
      place_isPlaced := fun id ↦ ?_
      isPlaced := fun {id} hin ↦ ?_
      inside := fun {id} hin ↦ ?_
      member_covers := fun {member block id} hmember hblock hkind hid ↦ ?_ }
  · rw [placing, Function.update_apply]
    split
    · exact hselection
    · exact h.place_isPlaced id
  · have hold : (tree.isStatement id = true ∨ tree.parent? id = some declarations) ∨
        id = tree.size := by
      rcases hin with hin | hin
      · exact (hlaid.isStatement_cases hin).imp_left .inl
      · exact ((hlaid.parent?_iff hdeclarations).1 hin).imp .inr (·.1)
    rcases hold with hin | rfl
    · have hlt : id < tree.size :=
        hin.elim SyntaxTree.lt_size_of_isStatement SyntaxTree.lt_size_of_parent?
      rw [hlaid.selectionOf_eq hlt]
      exact h.isPlaced hin
    · rwa [hlaid.selectionOf_self]
  · rcases hlaid.isStatement_cases hin with hin | rfl
    · have hlt := SyntaxTree.lt_size_of_isStatement hin
      rw [placing_of_lt hlt, hlaid.selectionOf_eq hlt]
      exact h.inside hin
    · rw [placing_self, hlaid.selectionOf_self]
      exact .refl selection
  · have hlt : block < tree.size := hlaid.lt_size_of_holds hid hkind rfl
    rw [hlaid.kind?_eq hlt] at hkind
    rw [hlaid.parent?_eq hlt] at hblock
    have hmember_lt : member < tree.size := (SyntaxTree.parent_lt hblock).trans hlt
    rw [hlaid.selectionOf_eq hmember_lt]
    rw [hlaid.parent?_eq hmember_lt] at hmember
    rcases (hlaid.parent?_iff hlt).1 hid with hid | ⟨rfl, rfl⟩
    · rw [placing_of_lt (SyntaxTree.lt_size_of_parent? hid)]
      exact h.member_covers hmember hblock hkind hid
    · rw [placing_self]
      exact hcovers hkind member hblock

/-! ### Ranges -/

section

variable {typeBlock : Option Nat}

/-- A block may be opened in the declarations or in the member that is open. -/
theorem Framed.withBlock (h : Framed tree procedure none) (hstands : Stands tree procedure typeBlock)
    (hholder : ∀ block ∈ typeBlock, ∃ holder, tree.parent? block = some holder ∧
      (tree.parent? holder = some declarations ∨
        ∃ opened, procedure = some opened ∧ holder = opened.block)) :
    Framed tree procedure typeBlock :=
  { h with
    stands := hstands
    block_holder := fun {block} hblock ↦ hholder block hblock }

/-- A member may be opened when none is. -/
theorem Framed.withProcedure {opened : OpenProcedure} (h : Framed tree none none)
    (hstands : Stands tree (some opened) none) (hblock : tree.parent? opened.block = some opened.node)
    (hnode : IsGreatest (members tree) opened.node) : Framed tree (some opened) none :=
  { h with
    stands := hstands
    opened_parent := fun {other} hother ↦ by
      cases hother
      exact ⟨hblock, hnode.1⟩
    opened_last := fun {other} hother ↦ by
      cases hother
      exact hnode.2
    block_holder := nofun }

namespace Ranged

variable (h : Ranged tree procedure none place) (hlaid : LaysOut tree holder kind selection grown)
include h hlaid

theorem body_hull_laysOut (hne : body ≠ holder) : (selectionOf grown body).IsHull (members grown)
    (takenIn grown procedure (placing tree place selection)) := by
  have hbody := SyntaxTree.lt_size_of_kind? h.stands.body_kind
  have hmembers : members grown = members tree := by
    ext id
    exact (hlaid.parent?_iff hbody).trans (or_iff_left fun hnew ↦ hne hnew.2)
  rw [hmembers, hlaid.selectionOf_eq hbody]
  exact h.body_hull.congr fun id hid ↦ hlaid.takenIn_eq (SyntaxTree.lt_size_of_parent? hid)

theorem declarations_hull_laysOut (hne : declarations ≠ holder)
    (hopen : ∀ id ∈ typeBlock, id = tree.size)
    (hspans : tree.kind? holder = some .block → kind.spansLines = true → typeBlock = some tree.size) :
    (selectionOf grown declarations).IsHull (shown grown typeBlock) (selectionOf grown) := by
  have hshown : shown grown typeBlock = shown tree none := by
    ext id
    exact (hlaid.mem_shown_iff h.stands hopen hspans).trans (or_iff_left fun hnew ↦ hne hnew.2)
  rw [hshown, hlaid.selectionOf_eq (SyntaxTree.lt_size_of_kind? h.stands.declarations_kind)]
  exact h.declarations_hull.congr fun id hid ↦
    hlaid.selectionOf_eq (lt_size_of_isPlaced (h.isPlaced_shown hid))

/-- What stood in an element still has its range. -/
theorem element_range_laysOut {element : Nat} (helement : tree.parent? element = some declarations)
    (hid : tree.parent? id = some element) : selectionOf grown element = selectionOf grown id := by
  rw [hlaid.selectionOf_eq (SyntaxTree.lt_size_of_parent? helement),
    hlaid.selectionOf_eq (SyntaxTree.lt_size_of_parent? hid), h.element_range helement hid, if_neg nofun]

/-- So it has where a section takes in what is laid out below it. -/
theorem element_range_section (hframed : Framed grown none none)
    (hsection : holder = declarations ∨ holder = body) {element : Nat}
    (hin : (grown.widen holder selection).parent? element = some declarations)
    (hid : (grown.widen holder selection).parent? id = some element) :
    selectionOf (grown.widen holder selection) element =
      selectionOf (grown.widen holder selection) id := by
  rw [SyntaxTree.parent?_widen] at hin hid
  obtain ⟨⟨hdeclarations, hbody⟩, hdeclarations', hbody'⟩ := hframed.ne_section_of_element hin hid
  have helement : holder ≠ element ∧ holder ≠ id := by
    rcases hsection with rfl | rfl
    · exact ⟨hdeclarations, hdeclarations'⟩
    · exact ⟨hbody, hbody'⟩
  have hlt : element < tree.size := hlaid.lt_size_of_holds hid (hframed.element_kind hin) rfl
  rw [hlaid.parent?_eq hlt] at hin
  have hold := ((hlaid.parent?_iff hlt).1 hid).resolve_right fun hnew ↦ helement.1 hnew.2.symm
  rw [selectionOf_widen_of_ne helement.1, selectionOf_widen_of_ne helement.2]
  exact h.element_range_laysOut hlaid hin hold

end Ranged

end

/-- The room for a statement with this range is the block of the open member, which has taken in the range,
or a new element of the declarations. -/
inductive HasRoom (tree : SyntaxTree) (procedure : Option OpenProcedure) (selection : Selection) :
    Nat → Prop
  | block {opened : OpenProcedure} (hopened : procedure = some opened)
    (hwithin : selection.Within (selectionOf tree opened.node)) :
    HasRoom tree procedure selection opened.block
  | element {element : Nat} (hparent : tree.parent? element = some declarations)
    (hrange : selectionOf tree element = selection) (hempty : ∀ id, tree.parent? id ≠ some element) :
    HasRoom tree procedure selection element

namespace HasRoom

variable (hroom : HasRoom tree procedure selection holder)
include hroom

theorem holdsStatements (h : Framed tree procedure none) :
    ∃ above, tree.kind? holder = some above ∧ above.holdsStatements = true := by
  cases hroom with
  | block hopened hwithin => exact ⟨.block, (h.stands.procedure_kind hopened).1, rfl⟩
  | element hparent hrange hempty => exact ⟨.moduleDeclarationsElement, h.element_kind hparent, rfl⟩

/-- Statements are laid out neither directly below the declarations nor directly below the body. -/
theorem ne_section (h : Framed tree procedure none) : declarations ≠ holder ∧ body ≠ holder := by
  cases hroom with
  | block hopened hwithin =>
    obtain ⟨hblock, -⟩ := h.stands.procedure_kind hopened
    constructor
    · intro heq
      cases (heq ▸ h.stands.declarations_kind).symm.trans hblock
    · intro heq
      cases (heq ▸ h.stands.body_kind).symm.trans hblock
  | element hparent hrange hempty => exact h.ne_section hparent (by decide)

/-- A statement laid out in the block of a member lies in the range of the member. -/
theorem within (h : Framed tree procedure none) (hkind : tree.kind? holder = some .block) {member : Nat}
    (hmember : tree.parent? holder = some member) : selection.Within (selectionOf tree member) := by
  cases hroom with
  | block hopened hwithin =>
    obtain ⟨hblock, -⟩ := h.opened_parent hopened
    cases hblock.symm.trans hmember
    exact hwithin
  | element hparent hrange hempty => cases (h.element_kind hparent).symm.trans hkind

theorem eq_of_element (h : Framed tree procedure none) (hparent : tree.parent? holder = some declarations) :
    selectionOf tree holder = selection ∧ ∀ id, tree.parent? id ≠ some holder := by
  cases hroom with
  | @block opened hopened hwithin =>
    -- The block of a member stands below its node, which is not the node of the declarations.
    obtain ⟨hblock, hnode⟩ := h.opened_parent hopened
    rw [Option.some.inj (hblock.symm.trans hparent), h.declarations_parent] at hnode
    cases hnode
  | element hparent hrange hempty => exact ⟨hrange, hempty⟩

end HasRoom

namespace Ranged

/-- A statement is laid out where there is room for it, and a block is open if the node spans further
lines. -/
theorem layStatement (h : Ranged tree procedure none place)
    (hroom : HasRoom tree procedure selection holder)
    (hlaid : LaysOut tree holder kind selection grown) (hselection : selection.IsPlaced)
    {typeBlock : Option Nat} (htypeBlock : typeBlock = if kind.spansLines then some tree.size else none) :
    Ranged grown procedure typeBlock (placing tree place selection) := by
  have hopen : ∀ id ∈ typeBlock, id = tree.size ∧ kind.spansLines = true := by
    subst htypeBlock
    intro id hid
    obtain ⟨hspans, heq⟩ := Option.ite_none_right_eq_some.1 hid
    exact ⟨(Option.some.inj heq).symm, hspans⟩
  obtain ⟨hdeclarations, hbody⟩ := hroom.ne_section h.toFramed
  have hframed : Framed grown procedure none := h.toFramed.laysOut hlaid
    (fun heq ↦ absurd heq.symm hdeclarations) (fun heq ↦ absurd heq.symm hbody)
    fun hparent ↦ (hroom.eq_of_element h.toFramed hparent).2
  have hstands : Stands grown procedure typeBlock :=
    { hframed.stands with
      block_kind := fun {block} hblock ↦ by
        obtain ⟨rfl, hspans⟩ := hopen block hblock
        obtain ⟨above, habove, hholds⟩ := hroom.holdsStatements h.toFramed
        refine ⟨SyntaxTree.isStatement_iff.2 ⟨holder, above, hlaid.parent?_self, ?_, hholds⟩,
          kind, hlaid.kind?_self, hspans⟩
        rw [hlaid.kind?_eq hlaid.holder_lt, habove] }
  have hcovered := h.toCovered.laysOut hlaid hframed hselection
    fun hkind member ↦ hroom.within h.toFramed hkind
  have hlt := SyntaxTree.lt_size_of_kind? h.stands.declarations_kind
  have hholder (block : Nat) (hblock : block ∈ typeBlock) :
      ∃ holder, grown.parent? block = some holder ∧ (grown.parent? holder = some declarations ∨
        ∃ opened, procedure = some opened ∧ holder = opened.block) := by
    cases (hopen block hblock).1
    refine ⟨holder, hlaid.parent?_self, ?_⟩
    cases hroom with
    | block hopened hwithin => exact .inr ⟨_, hopened, rfl⟩
    | element hparent hrange hempty =>
      rw [hlaid.parent?_eq hlaid.holder_lt]
      exact .inl hparent
  refine
    { toCovered := { hcovered with toFramed := hframed.withBlock hstands hholder }
      body_hull := h.body_hull_laysOut hlaid hbody
      declarations_hull := h.declarations_hull_laysOut hlaid hdeclarations (fun id hid ↦ (hopen id hid).1)
        fun _ hspans ↦ by rw [htypeBlock, if_pos hspans]
      element_range := fun {element id} hin hid ↦ ?_ }
  have helement : tree.parent? element = some declarations :=
    ((hlaid.parent?_iff hlt).1 hin).resolve_right fun hnew ↦ hdeclarations hnew.2
  rcases (hlaid.parent?_iff (SyntaxTree.lt_size_of_parent? helement)).1 hid with hid | ⟨rfl, rfl⟩
  · have hold : typeBlock ≠ some id :=
      fun hblock ↦ absurd (hopen id hblock).1 (SyntaxTree.lt_size_of_parent? hid).ne
    rw [if_neg hold, h.element_range_laysOut hlaid helement hid]
  · rw [hlaid.selectionOf_eq hlaid.holder_lt, (hroom.eq_of_element h.toFramed helement).1, placing_self,
      hlaid.selectionOf_self, ite_self]

/-- A new element has the range of the statement that it is made for. The declarations take it in. -/
theorem layElement (h : Ranged tree none none place)
    (hlaid : LaysOut tree declarations .moduleDeclarationsElement selection grown)
    (hselection : selection.IsPlaced) :
    Ranged (grown.widen declarations selection) none none (placing tree place selection) := by
  have hlt := SyntaxTree.lt_size_of_kind? h.stands.declarations_kind
  have hframed : Framed grown none none :=
    h.toFramed.laysOut hlaid (fun _ ↦ rfl) (fun _ ↦ rfl) fun hparent ↦ by
      rw [h.declarations_parent] at hparent
      cases hparent
  have hlt' : declarations < grown.size := SyntaxTree.lt_size_of_kind? hframed.stands.declarations_kind
  have hcovered := h.toCovered.laysOut hlaid hframed hselection fun hblock ↦ by
    cases h.stands.declarations_kind.symm.trans hblock
  refine
    { toCovered := hcovered.widen declarations hselection
      body_hull := ?_
      declarations_hull := ?_
      element_range := fun {element id} hin hid ↦ ?_ }
  · rw [members_widen, selectionOf_widen_of_ne (by decide)]
    exact (h.body_hull_laysOut hlaid (by decide)).congr fun member hmember ↦
      takenIn_widen_of_ne (hframed.ne_section hmember (by decide)).1 _ _
  · have hopen : ∀ id ∈ (none : Option Nat), id = tree.size := nofun
    have hshown : shown grown none = insert tree.size (shown tree none) := by
      ext id
      refine (hlaid.mem_shown_iff h.stands hopen fun _ hspans ↦ by cases hspans).trans ?_
      rw [Set.mem_insert_iff, or_comm, and_iff_left rfl]
    have hne : declarations ≠ tree.size := hlt.ne
    have hhull := h.declarations_hull.widen (fun _ ↦ h.isPlaced_shown)
      (selectionOf (grown.widen declarations selection)) tree.size
      (fun other hother _ ↦ by
        rw [selectionOf_widen_of_ne (h.ne_section_of_shown hother).1,
          hlaid.selectionOf_eq (lt_size_of_isPlaced (h.isPlaced_shown hother))])
      (fun hself ↦ absurd (lt_size_of_isPlaced (h.isPlaced_shown hself)) (Nat.lt_irrefl _))
    rw [selectionOf_widen_of_ne hne, hlaid.selectionOf_self, ← hshown] at hhull
    rw [shown_widen, selectionOf_widen_self hlt', hlaid.selectionOf_eq hlt]
    exact hhull
  · rw [if_neg nofun]
    exact h.element_range_section hlaid hframed (.inl rfl) hin hid

/-- The header of a member opens it. The body takes in the range of the header. -/
theorem layMember (h : Ranged tree none none place) (hlaid : LaysOut tree body kind selection grown)
    (hprocedure : kind.isProcedure = true) {block : Nat} (hblock : grown.kind? block = some .block)
    (hparent : grown.parent? block = some tree.size) (hselection : selection.IsPlaced) :
    Ranged (grown.widen body selection) (some ⟨tree.size, block⟩) none
      (placing tree place selection) := by
  have hlt := SyntaxTree.lt_size_of_kind? h.stands.body_kind
  have hframed : Framed grown none none :=
    h.toFramed.laysOut hlaid (fun heq ↦ absurd heq (by decide)) (fun _ ↦ rfl) fun hparent ↦ by
      rw [h.body_parent] at hparent
      cases hparent
  have hlt' : body < grown.size := SyntaxTree.lt_size_of_kind? hframed.stands.body_kind
  have hcovered := h.toCovered.laysOut hlaid hframed hselection fun hkind ↦ by
    cases h.stands.body_kind.symm.trans hkind
  have hwidened := hcovered.widen body hselection
  have hmembers : members grown = insert tree.size (members tree) := by
    ext id
    refine (hlaid.parent?_iff hlt).trans ?_
    rw [Set.mem_insert_iff, or_comm, and_iff_left rfl]
    rfl
  have hlast : IsGreatest (members (grown.widen body selection)) tree.size := by
    rw [members_widen, hmembers]
    refine ⟨Set.mem_insert _ _, ?_⟩
    rintro member (rfl | hold)
    · exact le_rfl
    · exact (SyntaxTree.lt_size_of_parent? hold).le
  have hopened : Framed (grown.widen body selection) (some ⟨tree.size, block⟩) none :=
    hwidened.toFramed.withProcedure
      ((hframed.stands.withProcedure hblock hlaid.kind?_self hprocedure).widen body selection)
      (by rw [SyntaxTree.parent?_widen, hparent]) hlast
  refine
    { toCovered := { hwidened with toFramed := hopened }
      body_hull := ?_
      declarations_hull := ?_
      element_range := fun {element id} hin hid ↦ ?_ }
  · have hself : takenIn (grown.widen body selection) (some ⟨tree.size, block⟩)
        (placing tree place selection) tree.size = selection := by
      rw [takenIn_self, placing_self]
    have hhull := h.body_hull.widen (fun _ ↦ h.isPlaced_takenIn)
      (takenIn (grown.widen body selection) (some ⟨tree.size, block⟩) (placing tree place selection))
      tree.size
      (fun member hmember hne ↦ by
        rw [takenIn_of_ne hne, selectionOf_widen_of_ne (h.ne_section hmember (by decide)).2,
          hlaid.selectionOf_eq (SyntaxTree.lt_size_of_parent? hmember), takenIn_none])
      (fun hself ↦ absurd (SyntaxTree.lt_size_of_parent? hself) (Nat.lt_irrefl _))
    rw [hself, ← hmembers] at hhull
    rw [members_widen, selectionOf_widen_self hlt', hlaid.selectionOf_eq hlt]
    exact hhull
  · have hhull : (selectionOf grown declarations).IsHull (shown grown none) (selectionOf grown) :=
      h.declarations_hull_laysOut hlaid (by decide) nofun fun hkind ↦ by
        cases h.stands.body_kind.symm.trans hkind
    rw [shown_widen, selectionOf_widen_of_ne (by decide)]
    exact hhull.congr fun other hother ↦
      selectionOf_widen_of_ne (hframed.ne_section_of_shown hother).2 _
  · rw [if_neg nofun]
    exact h.element_range_section hlaid hframed (.inr rfl) hin hid

end Ranged

end Reading

end VbaLint
