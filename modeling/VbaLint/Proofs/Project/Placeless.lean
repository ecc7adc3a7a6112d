import VbaLint.Proofs.Project.Assembling
import VbaLint.Proofs.Tree.Shape

/-!
# Projects without places

Erasing all ranges from the trees of a project erases the ranges from its declarations and references, and
changes nothing else: what is declared, and what a name refers to, does not depend on where it is written.
-/

namespace VbaLint

open Source Statement Text Tree

/-! ## Trees -/

def Tree.Node.placeless (node : Node) : Node := { node with selection := .unset }

namespace Tree.SyntaxTree

def placeless (tree : SyntaxTree) : SyntaxTree where
  nodes := tree.nodes.map Node.placeless
  linked := by
    refine tree.linked.of_same_links (by simp) ?_
    intro id node h
    rw [Array.getElem?_map] at h
    obtain ⟨old, hold, rfl⟩ := Option.map_eq_some_iff.1 h
    exact ⟨old, hold, rfl, rfl⟩

variable (tree : SyntaxTree) (id : Nat)

theorem node?_placeless : tree.placeless.node? id = (tree.node? id).map Node.placeless :=
  Array.getElem?_map

/-- Without ranges a tree has the same shape. -/
theorem sameShape_placeless : tree.placeless.SameShape tree :=
  .of_nodes Array.size_map fun {id node} hnode ↦ by
    rw [node?_placeless] at hnode
    obtain ⟨old, hold, rfl⟩ := Option.map_eq_some_iff.1 hnode
    exact ⟨old, hold, rfl, rfl, rfl⟩

/-- What is asked of the text of a node does not need its range. -/
theorem any_text_placeless (p : String → Bool) :
    ((tree.placeless.node? id).any fun node ↦ p node.text) = (tree.node? id).any fun node ↦ p node.text := by
  rw [node?_placeless, Option.any_map]
  rfl

end Tree.SyntaxTree

/-! ## What a node declares -/

def Declared.placeless (declared : Declared) : Declared := { declared with selection := .unset }

namespace Tree.SyntaxTree

variable (tree : SyntaxTree) (id : Nat)

theorem nameBelow?_placeless :
    tree.placeless.nameBelow? id = (tree.nameBelow? id).map fun (name, _) ↦ (name, .unset) := by
  unfold nameBelow?
  rw [tree.sameShape_placeless.firstChildOfKind?_eq]
  cases tree.firstChildOfKind? id .identifier with
  | none => rfl
  | some child =>
    simp only [Option.bind_eq_bind, Option.bind_some, node?_placeless]
    cases tree.node? child <;> rfl

theorem isPublicItem_placeless : tree.placeless.isPublicItem id = tree.isPublicItem id := by
  rw [isPublicItem, tree.sameShape_placeless.enclosingProcedure?_eq, tree.sameShape_placeless.parent?_eq,
    isPublicItem]
  cases tree.parent? id with
  | none => rfl
  | some parent => exact congrArg (_ && ·) (tree.any_text_placeless parent _)

variable (node : Node)

theorem declaredMember?_placeless : tree.placeless.declaredMember? id node.placeless =
    (tree.declaredMember? id node).map Declared.placeless := by
  rw [declaredMember?, nameBelow?_placeless, declaredMember?]
  change (signature? node.text.toList).bind _ = _
  cases signature? node.text.toList with
  | none => rfl
  | some signature => cases tree.nameBelow? id <;> rfl

theorem declaredParameter?_placeless : tree.placeless.declaredParameter? id node.placeless =
    (tree.declaredParameter? id node).map Declared.placeless := by
  rw [declaredParameter?, nameBelow?_placeless, declaredParameter?]
  change (parameter? node.text.toList).bind _ = _
  cases parameter? node.text.toList with
  | none => rfl
  | some parameter => cases tree.nameBelow? id <;> rfl

theorem declaredVariable?_placeless : tree.placeless.declaredVariable? id node.placeless =
    (tree.declaredVariable? id node).map Declared.placeless := by
  rw [declaredVariable?, nameBelow?_placeless, isPublicItem_placeless, declaredVariable?]
  change (declaredItem? node.text.toList).bind _ = _
  cases declaredItem? node.text.toList with
  | none => rfl
  | some declared => cases tree.nameBelow? id <;> rfl

theorem declaredConstant?_placeless :
    tree.placeless.declaredConstant? id = (tree.declaredConstant? id).map Declared.placeless := by
  rw [declaredConstant?, nameBelow?_placeless, isPublicItem_placeless, declaredConstant?]
  cases tree.nameBelow? id <;> rfl

theorem declaredBlock?_placeless : tree.placeless.declaredBlock? id node.placeless =
    (tree.declaredBlock? id node).map Declared.placeless := by
  rw [declaredBlock?, nameBelow?_placeless, declaredBlock?]
  cases tree.nameBelow? id <;> rfl

omit node

/-- A node declares the same wherever it stands. -/
theorem declared?_placeless : tree.placeless.declared? id = (tree.declared? id).map Declared.placeless := by
  unfold declared?
  rw [node?_placeless]
  cases tree.node? id with
  | none => rfl
  | some node =>
    have hkind : node.placeless.kind = node.kind := rfl
    simp only [Option.map_some, Option.bind_eq_bind, Option.bind_some, hkind]
    cases node.kind with
    | subStmt | functionStmt | propertyGetStmt | propertyLetStmt | propertySetStmt =>
      exact tree.declaredMember?_placeless id node
    | arg => exact tree.declaredParameter?_placeless id node
    | variableSubStmt => exact tree.declaredVariable?_placeless id node
    | constSubStmt => exact tree.declaredConstant?_placeless id
    | typeStmt | enumStmt => exact tree.declaredBlock?_placeless id node
    | _ => rfl

end Tree.SyntaxTree

/-! ## Declarations and references -/

def Reference.placeless (reference : Reference) : Reference := { reference with selection := .unset }

def Declaration.placeless (declaration : Declaration) : Declaration :=
  { declaration with
    selection := .unset
    references := declaration.references.map Reference.placeless }

def ScopedModule.placeless (module : ScopedModule) : ScopedModule :=
  { module with tree := module.tree.placeless }

namespace Declaring

def placeless (state : Declaring) : Declaring :=
  { state with declarations := state.declarations.map Declaration.placeless }

variable (state : Declaring) (module : ScopedModule)

theorem beginModule_placeless :
    state.placeless.beginModule module.placeless = (state.beginModule module).placeless := by
  have hmodule (id : Nat) :
      moduleDeclaration module.placeless id = (moduleDeclaration module id).placeless := by
    have hroot : ((module.tree.placeless.node? 0).map (·.selection)).getD .unset = .unset := by
      rw [SyntaxTree.node?_placeless]
      cases module.tree.node? 0 <;> rfl
    rw [moduleDeclaration, ScopedModule.placeless, hroot]
    simp [moduleDeclaration, Declaration.placeless]
  simp only [beginModule, placeless, Array.size_map, hmodule, Array.map_push]
  rfl

theorem declareNode_placeless (moduleId node : Nat) :
    declareNode module.placeless moduleId state.placeless node =
      (declareNode module moduleId state node).placeless := by
  have htree : module.placeless.tree = module.tree.placeless := rfl
  unfold declareNode
  rw [htree, SyntaxTree.declared?_placeless, module.tree.sameShape_placeless.enclosingProcedure?_eq]
  cases module.tree.declared? node with
  | none => rfl
  | some declared =>
    simp only [Option.map_some, placeless, Array.size_map, Array.map_push]
    simp only [Declaration.placeless, Array.map_empty]
    rfl

theorem declareModule_placeless :
    state.placeless.declareModule module.placeless = (state.declareModule module).placeless := by
  have hsize : state.placeless.declarations.size = state.declarations.size := Array.size_map
  have htree : module.placeless.tree.preorder = module.tree.preorder :=
    module.tree.sameShape_placeless.preorder_eq
  rw [declareModule, declareModule, htree, hsize, beginModule_placeless]
  exact List.foldl_hom placeless fun state node ↦ declareNode_placeless state module _ node

end Declaring

theorem referenceAt?_placeless (scopes : Scopes) (module : ScopedModule) (id : Nat) :
    referenceAt? scopes module.placeless id = (referenceAt? scopes module id).map Reference.placeless := by
  have htree : module.placeless.tree = module.tree.placeless := rfl
  have hkind : module.tree.placeless.kind? = module.tree.kind? :=
    funext module.tree.sameShape_placeless.kind?_eq
  unfold referenceAt?
  rw [htree, SyntaxTree.node?_placeless, module.tree.sameShape_placeless.parent?_eq, hkind,
    module.tree.sameShape_placeless.enclosingProcedure?_eq]
  cases module.tree.node? id with
  | none => rfl
  | some node =>
    have hnode : node.placeless.kind = node.kind ∧ node.placeless.text = node.text := ⟨rfl, rfl⟩
    have hname : module.placeless.name = module.name := rfl
    simp only [Option.map_some, Option.bind_eq_bind, Option.bind_some, hnode, hname]
    split
    · cases scopes.resolve? module.name (module.tree.enclosingProcedure? id) node.text <;> rfl
    · rfl

theorem referencesOf_placeless (scopes : Scopes) (modules : List ScopedModule) :
    referencesOf scopes (modules.map ScopedModule.placeless) =
      (referencesOf scopes modules).map Reference.placeless := by
  rw [referencesOf, referencesOf, List.flatMap_map, List.map_flatMap]
  congr 1
  funext module
  have hpreorder : module.placeless.tree.preorder = module.tree.preorder :=
    module.tree.sameShape_placeless.preorder_eq
  rw [hpreorder, List.map_filterMap]
  congr 1
  funext id
  exact referenceAt?_placeless scopes module id

theorem addReference_placeless (declarations : Array Declaration) (reference : Reference) :
    addReference (declarations.map Declaration.placeless) reference.placeless =
      (addReference declarations reference).map Declaration.placeless := by
  have htarget : reference.placeless.declaration = reference.declaration := rfl
  apply Array.ext_getElem?
  intro id
  simp only [addReference, htarget, Array.getElem?_modify, Array.getElem?_map]
  split
  · rw [Option.map_map, Option.map_map]
    congr 1
    funext declaration
    simp [Declaration.placeless]
  · rfl

/-- Binding the names of trees without places gives the declarations without places. -/
theorem bindNames_placeless (modules : List ScopedModule) :
    bindNames (modules.map ScopedModule.placeless) = (bindNames modules).map Declaration.placeless := by
  have hempty : Declaring.placeless ⟨#[], .empty, ∅⟩ = ⟨#[], .empty, ∅⟩ := by simp [Declaring.placeless]
  have hdeclared : (modules.map ScopedModule.placeless).foldl Declaring.declareModule ⟨#[], .empty, ∅⟩ =
      (modules.foldl Declaring.declareModule ⟨#[], .empty, ∅⟩).placeless := by
    rw [List.foldl_map]
    conv_lhs => rw [← hempty]
    exact List.foldl_hom Declaring.placeless fun state module ↦ Declaring.declareModule_placeless state module
  rw [bindNames, bindNames, hdeclared, Declaring.placeless, referencesOf_placeless, List.foldl_map]
  exact List.foldl_hom (Array.map Declaration.placeless) fun declarations reference ↦
    addReference_placeless declarations reference

/-! ## Snapshots -/

def Annotation.placeless (note : Annotation) : Annotation := { note with selection := .unset }

def ParsedModule.placeless (module : ParsedModule) : ParsedModule :=
  ⟨module.tree.placeless, module.annotations.map Annotation.placeless⟩

def ModuleSource.placeless (module : ModuleSource) : ModuleSource :=
  { module with
    contentHash := ""
    parsed := module.parsed.placeless }

def Snapshot.placeless (snapshot : Snapshot) : Snapshot :=
  { snapshot with
    version := 0
    modules := snapshot.modules.map ModuleSource.placeless
    declarations := snapshot.declarations.map Declaration.placeless }

theorem Snapshot.placeless_ofModules (version : Nat) (project : String) (modules : List ModuleSource) :
    (ofModules version project modules).placeless =
      ofModules 0 project (modules.map ModuleSource.placeless) := by
  have hordered := foldl_insertModule_map (f := ModuleSource.placeless) (fun _ ↦ rfl) modules []
  rw [List.map_nil] at hordered
  rw [ofModules, placeless, ofModules, hordered, ← bindNames_placeless, List.map_map, List.map_map]
  rfl

/-! ## Texts -/

/-- Texts of one component and type that are read alike but for places. -/
structure ModuleText.SameButPlaces (left right : ModuleText) : Prop where
  component : left.component = right.component
  type : left.type = right.type
  parsed : (readModule left.component left.text).placeless = (readModule right.component right.text).placeless

theorem ModuleText.SameButPlaces.refl (module : ModuleText) : module.SameButPlaces module := ⟨rfl, rfl, rfl⟩

theorem ModuleText.SameButPlaces.placeless_source_eq (project : String) {left right : ModuleText}
    (h : left.SameButPlaces right) : (left.source project).placeless = (right.source project).placeless := by
  rw [source, source, ModuleSource.placeless, ModuleSource.placeless, ModuleSource.mk.injEq]
  exact ⟨congrArg (ModuleName.mk project) h.component, h.type, rfl, h.parsed⟩

namespace Assembly

/-- Of texts that agree but for places the same ones are kept. -/
theorem sameButPlaces_add {left right : Assembly}
    (h : List.Forall₂ ModuleText.SameButPlaces left.modules right.modules) {module module' : ModuleText}
    (hmodule : module.SameButPlaces module') :
    List.Forall₂ ModuleText.SameButPlaces (left.add module).modules (right.add module').modules := by
  refine List.rel_append (List.rel_filter (fun kept kept' hkept ↦ ?_) h) (.cons hmodule .nil)
  change (kept.component != module.component) = true ↔ (kept'.component != module'.component) = true
  rw [hkept.component, hmodule.component]

theorem sameButPlaces_ofModules (project : String) {left right : List ModuleText}
    (h : List.Forall₂ ModuleText.SameButPlaces left right) :
    List.Forall₂ ModuleText.SameButPlaces (ofModules project left).modules
      (ofModules project right).modules := by
  have hfold {before before' : Assembly}
      (hbefore : List.Forall₂ ModuleText.SameButPlaces before.modules before'.modules) :
      List.Forall₂ ModuleText.SameButPlaces (left.foldl add before).modules
        (right.foldl add before').modules := by
    induction h generalizing before before' with
    | nil => exact hbefore
    | cons hmodule _ ih => exact ih (sameButPlaces_add hbefore hmodule)
  exact hfold .nil

/-- Projects whose texts agree but for places have snapshots that agree but for places. -/
theorem placeless_build_eq (project : String) {left right : List ModuleText}
    (h : List.Forall₂ ModuleText.SameButPlaces left right) (version version' : Nat) :
    ((ofModules project left).build version).placeless =
      ((ofModules project right).build version').placeless := by
  have hsources : ((ofModules project left).modules.map fun module ↦ (module.source project).placeless) =
      (ofModules project right).modules.map fun module ↦ (module.source project).placeless := by
    rw [← List.forall₂_eq_eq_eq, List.forall₂_map_left_iff, List.forall₂_map_right_iff]
    exact (sameButPlaces_ofModules project h).imp fun _ _ hmodule ↦ hmodule.placeless_source_eq project
  have hsnapshot (modules : List ModuleText) (version : Nat) :
      ((ofModules project modules).build version).placeless = .ofModules 0 project
        ((ofModules project modules).modules.map fun module ↦ (module.source project).placeless) := by
    rw [build_eq_snapshot (nodup_components project modules), snapshot, project_ofModules,
      Snapshot.placeless_ofModules, List.map_map]
    rfl
  rw [hsnapshot, hsnapshot, hsources]

end Assembly

end VbaLint
