import VbaLint.Proofs.Module.Holders
import VbaLint.Proofs.Module.TreeGrammar
import VbaLint.Proofs.Rules.Locating
import VbaLint.Proofs.Rules.Lowering
import VbaLint.Proofs.Tree.Visits

/-!
# When `Option Explicit` is missing

The rule walks through a tree and keeps two flags. What it reports in the end follows from the text alone:
whether an `Option Explicit` statement stands outside of the file header, of members and of blocks.
-/

namespace VbaLint

open Source Statement Text Tree

/-! ## What the walk finds -/

namespace OptionExplicit

/-- The walk comes to the option. -/
def entersOption : Visit → Bool
  | .enter .optionExplicitStmt _ => true
  | _ => false

variable {tree : SyntaxTree} {visits : List Visit}

theorem entersOption_iff {visit : Visit} :
    entersOption visit = true ↔ ∃ id, visit = .enter .optionExplicitStmt id := by
  cases visit with
  | enter kind id => cases kind <;> simp [entersOption]
  | leave => simp [entersOption]

/-- Within the declarations and outside of them a walk only notes the option. -/
theorem foldl_visit_inside (h : ∀ visit ∈ visits, visit.kind ≠ .moduleDeclarations) (seen : Seen) :
    visits.foldl (Seen.visit tree) seen =
      { seen with hasOption := seen.hasOption || visits.any entersOption } := by
  induction visits generalizing seen with
  | nil => simp
  | cons visit rest ih =>
    have hfirst : seen.visit tree visit =
        { seen with hasOption := seen.hasOption || entersOption visit } := by
      have hkind := h visit List.mem_cons_self
      cases visit with
      | enter kind id => cases kind <;> first | exact absurd rfl hkind | simp [Seen.visit, entersOption]
      | leave kind id => cases kind <;> first | exact absurd rfl hkind | simp [Seen.visit, entersOption]
    rw [List.foldl_cons, hfirst, ih fun other hother ↦ h other (List.mem_cons_of_mem visit hother),
      List.any_cons, Bool.or_assoc]

variable (h : tree.Obeys)
include h

/-- The sections of a tree. -/
theorem exists_sections : ∃ declarations body, tree.children 0 = [declarations, body] ∧
    tree.kind? declarations = some .moduleDeclarations ∧ tree.kind? body = some .moduleBody := by
  have hkinds : tree.childKinds 0 = [.moduleDeclarations, .moduleBody] := h.admits h.root
  have hchildren := tree.map_kind?_children 0
  rw [hkinds, List.map_cons, List.map_singleton] at hchildren
  obtain ⟨declarations, rest, hdeclared, hdeclarations, hrest⟩ := List.map_eq_cons_iff.1 hchildren
  obtain ⟨body, rfl, hbody⟩ := List.map_eq_singleton_iff.1 hrest
  exact ⟨declarations, body, hdeclared, hdeclarations, hbody⟩

/-- A walk from another node below the root does not come to the declarations. -/
theorem kind_ne_of_mem_visitsFrom {top : Nat} {above : NodeKind} (habove : tree.kind? top = some above)
    (htop : above ≠ .module ∧ above ≠ .moduleDeclarations) {visit : Visit}
    (hvisit : visit ∈ tree.visitsFrom top) : visit.kind ≠ .moduleDeclarations := by
  obtain ⟨hnode, hbelow⟩ := SyntaxTree.kind?_of_mem_visitsFrom hvisit
  rcases SyntaxTree.mem_preorderFrom.1 hbelow with heq | hbelow
  · rw [heq, habove] at hnode
    rw [← Option.some.inj hnode]
    exact htop.2
  · have hkind := h.kind_below (p := fun kind ↦ kind != .module && kind != .moduleDeclarations) ?_
      habove (by simp [htop]) hbelow hnode
    · exact bne_iff_ne.1 (Bool.and_eq_true_iff.1 hkind).2
    · intro above kind hinner hholds
      simp only [Bool.and_eq_true, bne_iff_ne] at hinner ⊢
      refine ⟨?_, ?_⟩
      · rintro rfl
        rw [NodeKind.mayHold_module] at hholds
        cases hholds
      · rintro rfl
        exact hinner.1 (NodeKind.eq_module_of_mayHold (.inl rfl) hholds)

/-- No block of a member is below the declarations. -/
theorem ne_block_of_mem_ancestors {declarations id : Nat} {kind : NodeKind}
    (hdeclarations : tree.kind? declarations = some .moduleDeclarations)
    (hbelow : declarations ∈ tree.ancestors id) (hkind : tree.kind? id = some kind) :
    kind ≠ .block := by
  have hinner := h.kind_below (p := fun kind ↦
    kind != .module && kind != .moduleBody && !kind.isProcedure && kind != .block) ?_
      hdeclarations rfl hbelow hkind
  · exact bne_iff_ne.1 (Bool.and_eq_true_iff.1 hinner).2
  · intro above kind hinner hholds
    simp only [Bool.and_eq_true, bne_iff_ne, Bool.not_eq_true'] at hinner ⊢
    obtain ⟨⟨⟨hmodule, hbody⟩, hprocedure⟩, -⟩ := hinner
    refine ⟨⟨⟨?_, ?_⟩, ?_⟩, ?_⟩
    · rintro rfl
      rw [NodeKind.mayHold_module] at hholds
      cases hholds
    · rintro rfl
      exact hmodule (NodeKind.eq_module_of_mayHold (.inr rfl) hholds)
    · rw [← Bool.not_eq_true]
      intro hkind
      exact hbody (NodeKind.eq_moduleBody_of_mayHold hkind hholds)
    · rintro rfl
      rw [NodeKind.isProcedure_of_mayHold_block hholds] at hprocedure
      cases hprocedure

/-- An option is somewhere below the declarations if and only if it stands in an element of them. -/
theorem mem_ancestors_iff_holderKind? {declarations id : Nat}
    (hdeclarations : tree.kind? declarations = some .moduleDeclarations)
    (hkind : tree.kind? id = some .optionExplicitStmt) :
    declarations ∈ tree.ancestors id ↔ tree.holderKind? id = some .moduleDeclarationsElement := by
  have hid : id ≠ 0 := by
    rintro rfl
    cases h.root.symm.trans hkind
  obtain ⟨parent, above, hparent, habove, hholds⟩ := h.exists_above hkind hid
  have hholder : tree.holderKind? id = some above := by
    rw [SyntaxTree.holderKind?, hparent, Option.bind_some, habove]
  have hplace : above = .moduleDeclarationsElement ∨ above = .block := by
    cases above <;> first | exact .inl rfl | exact .inr rfl | exact absurd hholds Bool.false_ne_true
  rw [hholder, Option.some.injEq, SyntaxTree.ancestors_of_parent hparent, List.mem_cons]
  constructor
  · rintro (rfl | hbelow)
    · cases hdeclarations.symm.trans habove
      cases hholds
    · exact hplace.resolve_right (ne_block_of_mem_ancestors h hdeclarations hbelow habove)
  · rintro rfl
    have hparent0 : parent ≠ 0 := by
      rintro rfl
      cases h.root.symm.trans habove
    obtain ⟨outer, beyond, houter, hbeyond, hholds'⟩ := h.exists_above habove hparent0
    have hsection : beyond = .moduleDeclarations := by
      cases beyond <;> first | rfl | exact absurd hholds' Bool.false_ne_true
    subst hsection
    rw [h.eq_of_section (.inl rfl) hbeyond hdeclarations] at houter
    rw [SyntaxTree.ancestors_of_parent houter]
    exact .inr List.mem_cons_self

/-- The walk reports the root if no element of the declarations holds the option, and else nothing. -/
theorem select_of_obeys [Decidable (∃ id, tree.kind? id = some .optionExplicitStmt ∧
      tree.holderKind? id = some .moduleDeclarationsElement)] :
    select tree = if ∃ id, tree.kind? id = some .optionExplicitStmt ∧
      tree.holderKind? id = some .moduleDeclarationsElement then [] else [0] := by
  obtain ⟨declarations, body, hsections, hdeclarations, hbody⟩ := exists_sections h
  have hparent : tree.parent? declarations = some 0 :=
    SyntaxTree.mem_children.1 (by simp [hsections])
  have hinside : ∀ visit ∈ (tree.children declarations).flatMap tree.visitsFrom,
      visit.kind ≠ .moduleDeclarations := by
    intro visit hvisit
    obtain ⟨child, hchild, hbelow⟩ := List.mem_flatMap.1 hvisit
    obtain ⟨kind, hkind⟩ := SyntaxTree.exists_kind?_of_lt (SyntaxTree.lt_of_mem_children hchild).2
    have hholds := h.mayHold_above (SyntaxTree.mem_children.1 hchild) hkind hdeclarations
    cases eq_of_beq hholds
    exact kind_ne_of_mem_visitsFrom h hkind ⟨nofun, nofun⟩ hbelow
  have hbehind : ∀ visit ∈ tree.visitsFrom body, visit.kind ≠ .moduleDeclarations :=
    fun visit ↦ kind_ne_of_mem_visitsFrom h hbody ⟨nofun, nofun⟩
  have hoption : ((tree.children declarations).flatMap tree.visitsFrom).any entersOption = true ↔
      ∃ id, tree.kind? id = some .optionExplicitStmt ∧
        tree.holderKind? id = some .moduleDeclarationsElement := by
    simp only [List.any_eq_true, entersOption_iff, List.mem_flatMap]
    constructor
    · rintro ⟨_, ⟨child, hchild, hbelow⟩, id, rfl⟩
      obtain ⟨hkind, hplace⟩ := SyntaxTree.kind?_of_mem_visitsFrom hbelow
      refine ⟨id, hkind, (mem_ancestors_iff_holderKind? h hdeclarations hkind).1 ?_⟩
      exact SyntaxTree.mem_ancestors_iff_exists_child.2
        ⟨child, hchild, SyntaxTree.mem_preorderFrom.1 hplace⟩
    · rintro ⟨id, hkind, hholder⟩
      have hbelow := (mem_ancestors_iff_holderKind? h hdeclarations hkind).2 hholder
      obtain ⟨child, hchild, hplace⟩ := SyntaxTree.mem_ancestors_iff_exists_child.1 hbelow
      exact ⟨_, ⟨child, hchild, SyntaxTree.enter_mem_visitsFrom hkind
        (SyntaxTree.mem_preorderFrom.2 hplace)⟩, id, rfl⟩
  have hvisits : tree.visits = .enter .module 0 ::
      (.enter .moduleDeclarations declarations ::
        (tree.children declarations).flatMap tree.visitsFrom ++
          [.leave .moduleDeclarations declarations] ++ tree.visitsFrom body) ++ [.leave .module 0] := by
    rw [SyntaxTree.visits, SyntaxTree.visitsFrom_of_kind h.root, hsections, List.flatMap_cons,
      List.flatMap_singleton, SyntaxTree.visitsFrom_of_kind hdeclarations]
    rfl
  rw [select, hvisits]
  simp only [List.foldl_cons, List.foldl_append, List.foldl_nil, Seen.visit,
    foldl_visit_inside hinside, foldl_visit_inside hbehind, Bool.false_or, ← hoption]
  cases ((tree.children declarations).flatMap tree.visitsFrom).any entersOption with
  | false => simp [hparent]
  | true => simp

end OptionExplicit

/-! ## What the text says -/

/-- An `Option Explicit` statement stands outside of the file header, of all members and of all blocks of
declarations. -/
def HasOptionExplicit (source : List Char) : Prop :=
  ∃ before statement behind, statementsOf source = before ++ statement :: behind ∧
    shapeOf statement.text = .option .optionExplicitStmt ∧
    ((Openings.start.after before).header.next statement.text).2 = false ∧
    (Openings.start.after before).procedure = false ∧
    (Openings.start.after before).block = false

theorem Statement.nodeKind_eq_optionExplicitStmt_iff {text : List Char} :
    (shapeOf text).nodeKind = .optionExplicitStmt ↔
      shapeOf text = .option .optionExplicitStmt := by
  cases hshape : shapeOf text with
  | procedureStart signature =>
    have hprocedure := isProcedure_of_signature? (signature?_of_shapeOf hshape)
    simp only [Shape.nodeKind, reduceCtorEq, iff_false]
    intro hkind
    rw [hkind] at hprocedure
    cases hprocedure
  | blockStart kind name =>
    rcases blockStart?_cases (blockStart?_of_shapeOf hshape) with rfl | rfl <;>
      simp [Shape.nodeKind, SyntaxTree.statementKind]
  | _ => simp [Shape.nodeKind, SyntaxTree.statementKind]

/-- The text has the option if and only if it is put into an element of the declarations. -/
theorem hasOptionExplicit_iff_placed {source : List Char} : HasOptionExplicit source ↔
    ∃ segment, (segment, NodeKind.moduleDeclarationsElement) ∈
        Openings.start.placed (statementsOf source) ∧
      (shapeOf segment.text).nodeKind = .optionExplicitStmt := by
  simp only [Openings.mem_placed_iff, nodeKind_eq_optionExplicitStmt_iff]
  have hplace (openings : Openings) {statement : Segment}
      (hshape : shapeOf statement.text = .option .optionExplicitStmt) :
      (openings.next statement.text).2 = true ∧
          openings.holder statement.text = .moduleDeclarationsElement ↔
        (openings.header.next statement.text).2 = false ∧ openings.procedure = false ∧
          openings.block = false := by
    have hends : openings.endsMember statement.text = false := by
      rw [Openings.endsMember, hshape]
      simp
    have hplain : ∀ signature, shapeOf statement.text ≠ .procedureStart signature := by
      simp [hshape]
    rw [Openings.makes_next, hends, openings.holder_of_plain hplain]
    cases openings.procedure <;> cases openings.block <;> simp
  constructor
  · rintro ⟨before, statement, behind, hsplit, hshape, hopen⟩
    obtain ⟨hmakes, hholder⟩ := (hplace (Openings.start.after before) hshape).2 hopen
    exact ⟨statement, ⟨before, behind, hsplit, hmakes, hholder⟩, hshape⟩
  · rintro ⟨statement, ⟨before, behind, hsplit, hmakes, hholder⟩, hshape⟩
    exact ⟨before, statement, behind, hsplit, hshape,
      (hplace (Openings.start.after before) hshape).1 ⟨hmakes, hholder⟩⟩

instance (source : List Char) : Decidable (HasOptionExplicit source) :=
  decidable_of_iff ((Openings.start.placed (statementsOf source)).any fun placed ↦
      placed.2 == .moduleDeclarationsElement &&
        (shapeOf placed.1.text).nodeKind == .optionExplicitStmt) <| by
    rw [hasOptionExplicit_iff_placed]
    simp

theorem OptionExplicit.select_readModule (component text : String) :
    select (readModule component text).tree = if HasOptionExplicit text.toList then [] else [0] := by
  have hiff : _ ↔ HasOptionExplicit text.toList := (exists_holderKind?_iff component text rfl).trans
    hasOptionExplicit_iff_placed.symm
  have := decidable_of_iff _ hiff.symm
  rw [select_of_obeys (obeys_readModule component text)]
  simp only [hiff]

/-! ## What is found -/

/-- The root goes on to be the whole text. -/
theorem node?_root_readModule (component text : String) :
    ∃ children, (readModule component text).tree.node? 0 =
      some ⟨.module, Reading.moduleSelection text.toList, component, none, children⟩ := by
  let root : Node := ⟨.module, Reading.moduleSelection text.toList, component, none, #[]⟩
  have hkept : Reading.Preserves fun tree ↦ tree.bare? 0 = some root := by
    apply Reading.preserves_of_growsTo
    intro tree grown hroot hgrows
    have hkind : tree.kind? 0 = some .module := by rw [SyntaxTree.kind?_eq_bare?, hroot]; rfl
    exact (hgrows.bare?_eq hkind rfl).trans hroot
  obtain ⟨node, hnode, hbare⟩ := Option.map_eq_some_iff.1 (hkept.readModule component text rfl)
  refine ⟨node.children, hnode.trans ?_⟩
  rw [show node = { node.bare with children := node.children } from rfl, hbare]

namespace OptionExplicit

/-- The nodes that are picked from some modules are the roots of those whose texts lack the option. -/
theorem flatMap_select (project : String) (texts : List ModuleText) :
    ((texts.map (·.source project)).flatMap fun module ↦
        (select module.parsed.tree).map (⟨module.name, ·⟩ : Nat → Context)) =
      (texts.filter fun text ↦ !HasOptionExplicit text.text.toList).map fun text ↦
        ⟨⟨project, text.component⟩, 0⟩ := by
  rw [List.flatMap_map, List.map_eq_flatMap, flatMap_filter]
  apply List.flatMap_congr
  intro text _
  simp only [ModuleText.source, select_readModule]
  by_cases hoption : HasOptionExplicit text.text.toList <;> simp [hoption]

theorem contextFinding?_root {context : PassContext} (hread : context.snapshot.IsRead)
    {project : String} {text : ModuleText}
    (hsource : text.source project ∈ context.snapshot.modules) :
    context.contextFinding? info ⟨⟨project, text.component⟩, 0⟩
        (message ⟨project, text.component⟩) =
      some (context.finding info
        (.context ⟨project, text.component⟩ 0 (Reading.moduleSelection text.text.toList))
        (message ⟨project, text.component⟩)) := by
  obtain ⟨children, hnode⟩ := node?_root_readModule text.component text.text
  have hroot : context.snapshot.node? ⟨project, text.component⟩ 0 = some _ :=
    (hread.node?_eq hsource 0).trans hnode
  rw [PassContext.contextFinding?, hroot, Option.map_some]

end OptionExplicit

/-- The rule is decided by the texts alone: in the order of the modules, one finding at the root of each
module in which it is not silenced there and whose text has no `Option Explicit` statement outside of the
file header, of members and of blocks. -/
theorem missing_option_is_decided_by_text (project : String) (modules : List ModuleText)
    (version : Nat) (severities : Severities) (state : Collector) :
    let context : PassContext :=
      ⟨(Assembly.ofModules project modules).build version, severities⟩
    ∃ texts, Assembly.LastTexts modules texts ∧
      RuleInstance.outcome context ⟨OptionExplicit.inspection, state⟩ = .found
        ((texts.filter fun text ↦
            !HasOptionExplicit text.text.toList &&
              !context.snapshot.isIgnoring ⟨project, text.component⟩ 0 "OptionExplicit").map
          fun text ↦ context.finding OptionExplicit.info
            (.context ⟨project, text.component⟩ 0 (Reading.moduleSelection text.text.toList))
            ("'Option Explicit' is not specified in '" ++ text.component ++ "'.")) := by
  intro context
  obtain ⟨texts, hlast, hmodules⟩ := Assembly.exists_lastTexts_build project modules version
  refine ⟨texts, hlast, ?_⟩
  have hread := Assembly.isRead_build project modules version
  have hsame : (fun text : ModuleText ↦
      !context.snapshot.isIgnoring ⟨project, text.component⟩ 0 "OptionExplicit" &&
        !decide (HasOptionExplicit text.text.toList)) =
      fun text ↦ !decide (HasOptionExplicit text.text.toList) &&
        !context.snapshot.isIgnoring ⟨project, text.component⟩ 0 "OptionExplicit" :=
    funext fun text ↦ Bool.and_comm _ _
  rw [OptionExplicit.inspection, Inspection.outcome_ofTrees, hmodules,
    OptionExplicit.flatMap_select, List.filter_map, List.filter_filter, List.filterMap_map,
    ← List.filterMap_eq_map, ← hsame]
  congr 1
  apply List.filterMap_congr
  intro text htext
  apply OptionExplicit.contextFinding?_root hread
  rw [hmodules]
  exact List.mem_map_of_mem (List.mem_of_mem_filter htext)

end VbaLint
