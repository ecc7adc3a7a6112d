import VbaLint.Proofs.Module.Lowering
import VbaLint.Proofs.Project.Assembling
import VbaLint.Proofs.Project.Visibility

/-!
# Lowered projects

Names are declared and bound in any case. So binding the names of lowered trees comes to the
declarations of the trees themselves, with their texts lowered and without the places that are
searched for.
-/

namespace VbaLint

open Source Statement Text Tree

/-! ## What a node declares -/

namespace DeclarationKind

/-- The place of the declared name is searched for in its item. -/
def isSearched (kind : DeclarationKind) : Bool := kind == .parameter || kind == .variableItem

end DeclarationKind

def Declared.lowered (declared : Declared) : Declared :=
  { declared with
    name := lowerAsciiString declared.name
    selection := if declared.kind.isSearched then .unset else declared.selection
    asType := declared.asType.map lowerAsciiString }

theorem startsWithWord_lowerAsciiString (keywords : List String) (text : String) :
    startsWithWord keywords (lowerAsciiString text) = startsWithWord keywords text := by
  have hfirst : ((words (lowerAsciiString text).toList).head?).getD [] =
      lowerAscii (((words text.toList).head?).getD []) := by
    rw [toList_lowerAsciiString, words_lowerAscii, List.head?_map]
    cases (words text.toList).head? <;> rfl
  simp only [startsWithWord, hfirst, sameIgnoringCase_lowerAscii_right]

theorem withoutArrayMarks_lowerAscii (reversed : List Char) :
    withoutArrayMarks (lowerAscii reversed) = lowerAscii (withoutArrayMarks reversed) := by
  fun_induction withoutArrayMarks reversed with
  | case1 reversed ih => exact ih
  | case2 reversed hmarks =>
    rw [withoutArrayMarks]
    intro rest hrest
    -- Lowering makes no parentheses.
    match reversed with
    | [] => cases hrest
    | [c] => simp at hrest
    | c :: d :: more =>
      obtain ⟨hc, hrest⟩ := List.cons_eq_cons.1 hrest
      obtain ⟨hd, -⟩ := List.cons_eq_cons.1 hrest
      rw [toLower_eq_iff (by decide)] at hc hd
      exact hmarks more (by rw [hc, hd])

theorem isArrayType_lowerAscii (type : List Char) :
    isArrayType (lowerAscii type) = isArrayType type :=
  isSuffixOf_lowerAscii (by decide) type

namespace Tree.SyntaxTree

variable (tree : SyntaxTree) (id : Nat)

theorem nameBelow?_lowered {kind : NodeKind} (hkind : tree.kind? id = some kind) :
    tree.lowered.nameBelow? id = (tree.nameBelow? id).map fun (name, selection) ↦
      (lowerAsciiString name,
        if kind = .arg ∨ kind = .variableSubStmt then .unset else selection) := by
  unfold nameBelow?
  rw [firstChildOfKind?_lowered]
  cases hchild : tree.firstChildOfKind? id .identifier with
  | none => rfl
  | some child =>
    have hparent : tree.parent? child = some id := mem_children.1 (List.mem_of_find?_eq_some hchild)
    have hidentifier := List.find?_some hchild
    simp only [Option.bind_eq_bind, Option.bind_some, node?_lowered]
    cases hnode : tree.node? child with
    | none => rfl
    | some node =>
      have habove : node.parent = some id := by simpa [parent?, hnode] using hparent
      have hname : node.kind = .identifier := by simpa [kind?, hnode] using hidentifier
      simp [Node.lowered, NodeKind.isSearched, habove, hkind, hname]

theorem isPublicItem_lowered : tree.lowered.isPublicItem id = tree.isPublicItem id := by
  have hstatement : ((tree.parent? id).bind tree.lowered.node?).any
      (fun statement ↦ startsWithWord ["public", "global"] statement.text) =
      ((tree.parent? id).bind tree.node?).any
        fun statement ↦ startsWithWord ["public", "global"] statement.text := by
    cases tree.parent? id with
    | none => rfl
    | some parent =>
      rw [Option.bind_some, Option.bind_some, node?_lowered]
      cases tree.node? parent with
      | none => rfl
      | some node =>
        simp only [Option.map_some, Option.any_some, Node.lowered, startsWithWord_lowerAsciiString]
  rw [isPublicItem, enclosingProcedure?_lowered, parent?_lowered, hstatement, isPublicItem]

/-- What a node of the kind of a member declares, in its lowered form. -/
theorem declaredMember?_lowered {node : Node} (hkind : tree.kind? id = some node.kind)
    (hmember : node.kind.isProcedure = true) (above : Option NodeKind) :
    tree.lowered.declaredMember? id (node.lowered above) =
      (tree.declaredMember? id node).map Declared.lowered := by
  have hname : ¬(node.kind = .arg ∨ node.kind = .variableSubStmt) := by
    rintro (h | h) <;> rw [h] at hmember <;> cases hmember
  have hplaced : (memberDeclarationKind node.kind).isSearched = false := by
    cases node.kind <;> rfl
  have htype (type : List Char) :
      String.ofList (withoutArrayMarks (lowerAscii type).reverse).reverse =
        lowerAsciiString (String.ofList (withoutArrayMarks type.reverse).reverse) := by
    rw [reverse_lowerAscii, withoutArrayMarks_lowerAscii, reverse_lowerAscii,
      lowerAsciiString_ofList]
  unfold declaredMember?
  rw [Node.lowered, toList_lowerAsciiString, signature?_lowerAscii,
    nameBelow?_lowered tree id hkind]
  cases signature? node.text.toList with
  | none => rfl
  | some signature =>
    cases tree.nameBelow? id with
    | none => rfl
    | some name =>
      simp only [Option.map_some, Option.bind_eq_bind, Option.bind_some, if_neg hname,
        Declared.lowered, hplaced, Signature.lowered]
      cases signature.asType with
      | none => rfl
      | some type => simp [htype, isArrayType_lowerAscii]

theorem declaredParameter?_lowered {node : Node} (hkind : tree.kind? id = some .arg)
    (above : Option NodeKind) :
    tree.lowered.declaredParameter? id (node.lowered above) =
      (tree.declaredParameter? id node).map Declared.lowered := by
  unfold declaredParameter?
  rw [Node.lowered, toList_lowerAsciiString, parameter?_lowerAscii,
    nameBelow?_lowered tree id hkind]
  cases parameter? node.text.toList with
  | none => rfl
  | some parameter =>
    cases tree.nameBelow? id with
    | none => rfl
    | some name =>
      simp [Declared.lowered, DeclarationKind.isSearched, Parameter.lowered, Function.comp_def]

theorem declaredVariable?_lowered {node : Node} (hkind : tree.kind? id = some .variableSubStmt)
    (above : Option NodeKind) :
    tree.lowered.declaredVariable? id (node.lowered above) =
      (tree.declaredVariable? id node).map Declared.lowered := by
  unfold declaredVariable?
  rw [Node.lowered, toList_lowerAsciiString, declaredItem?_lowerAscii,
    nameBelow?_lowered tree id hkind, isPublicItem_lowered]
  cases declaredItem? node.text.toList with
  | none => rfl
  | some declared =>
    cases tree.nameBelow? id with
    | none => rfl
    | some name =>
      simp [Declared.lowered, DeclarationKind.isSearched, Variable.lowered, Function.comp_def]

theorem declaredConstant?_lowered (hkind : tree.kind? id = some .constSubStmt) :
    tree.lowered.declaredConstant? id = (tree.declaredConstant? id).map Declared.lowered := by
  unfold declaredConstant?
  rw [nameBelow?_lowered tree id hkind, isPublicItem_lowered]
  cases tree.nameBelow? id <;> rfl

theorem declaredBlock?_lowered {node : Node} (hkind : tree.kind? id = some node.kind)
    (hblock : node.kind = .typeStmt ∨ node.kind = .enumStmt) (above : Option NodeKind) :
    tree.lowered.declaredBlock? id (node.lowered above) =
      (tree.declaredBlock? id node).map Declared.lowered := by
  unfold declaredBlock?
  rw [nameBelow?_lowered tree id hkind, Node.lowered, startsWithWord_lowerAsciiString]
  cases tree.nameBelow? id with
  | none => rfl
  | some name => rcases hblock with h | h <;> rw [h] <;> rfl

/-- A node of a lowered tree declares the lowered form of what it declares. -/
theorem declared?_lowered :
    tree.lowered.declared? id = (tree.declared? id).map Declared.lowered := by
  unfold declared?
  rw [node?_lowered]
  cases hnode : tree.node? id with
  | none => rfl
  | some node =>
    have hkind : tree.kind? id = some node.kind := by rw [kind?, hnode, Option.map_some]
    have hsame (above : Option NodeKind) : (node.lowered above).kind = node.kind := rfl
    simp only [Option.map_some, Option.bind_eq_bind, Option.bind_some, hsame]
    cases hcase : node.kind with
    | subStmt | functionStmt | propertyGetStmt | propertyLetStmt | propertySetStmt =>
      exact declaredMember?_lowered tree id hkind (by rw [hcase]; rfl) _
    | arg => exact declaredParameter?_lowered tree id (hcase ▸ hkind) _
    | variableSubStmt => exact declaredVariable?_lowered tree id (hcase ▸ hkind) _
    | constSubStmt => exact declaredConstant?_lowered tree id (hcase ▸ hkind)
    | typeStmt | enumStmt => exact declaredBlock?_lowered tree id hkind (by simp [hcase]) _
    | _ => rfl

end Tree.SyntaxTree

/-! ## Scopes -/

namespace Scopes

variable (scopes : Scopes) (scope : Scope) (name : String)

@[simp]
theorem declare_lowerAsciiString (declaration : Nat) :
    scopes.declare scope (lowerAsciiString name) declaration =
      scopes.declare scope name declaration := by
  rw [declare, lowerAsciiString_lowerAsciiString, declare]

@[simp]
theorem find?_lowerAsciiString :
    scopes.find? scope (lowerAsciiString name) = scopes.find? scope name := by
  rw [find?, lowerAsciiString_lowerAsciiString, find?]

@[simp]
theorem resolve?_lowerAsciiString (module : ModuleName) (procedure : Option Nat) :
    scopes.resolve? module procedure (lowerAsciiString name) =
      scopes.resolve? module procedure name := by
  simp [resolve?]

end Scopes

/-! ## Declarations and references -/

def Reference.lowered (reference : Reference) : Reference :=
  { reference with identifier := lowerAsciiString reference.identifier }

/-- The lowered form of a declaration. The name of a module is not taken from its text and stays. -/
def Declaration.lowered (declaration : Declaration) : Declaration :=
  { declaration with
    name :=
      if declaration.kind = .module then declaration.name else lowerAsciiString declaration.name
    asType := declaration.asType.map lowerAsciiString
    selection := if declaration.kind.isSearched then .unset else declaration.selection
    references := declaration.references.map Reference.lowered }

def ScopedModule.lowered (module : ScopedModule) : ScopedModule :=
  { module with tree := module.tree.lowered }

namespace Declaring

def lowered (state : Declaring) : Declaring :=
  { state with declarations := state.declarations.map Declaration.lowered }

variable (state : Declaring) (module : ScopedModule)

theorem moduleDeclaration_lowered (id : Nat) :
    moduleDeclaration module.lowered id = (moduleDeclaration module id).lowered := by
  have hroot : (module.tree.lowered.node? 0).map (·.selection) =
      (module.tree.node? 0).map (·.selection) := by
    rw [SyntaxTree.node?_lowered, Option.map_map]
    cases hnode : module.tree.node? 0 with
    | none => rfl
    | some node =>
      have hparent : node.parent = none := (module.tree.linked.parent_eq_none_iff hnode).2 rfl
      simp [Node.lowered, NodeKind.isSearched, hparent]
  simp [moduleDeclaration, ScopedModule.lowered, hroot, Declaration.lowered,
    DeclarationKind.isSearched]

theorem beginModule_lowered :
    state.lowered.beginModule module.lowered = (state.beginModule module).lowered := by
  simp only [beginModule, lowered, Array.size_map, moduleDeclaration_lowered, Array.map_push]
  rfl

theorem publish_lowered (scopes : Scopes) (enclosing : Option Nat) (declared : Declared)
    (id : Nat) :
    publish scopes module.lowered enclosing declared.lowered id =
      publish scopes module enclosing declared id := by
  simp only [publish, Declared.lowered, ScopedModule.lowered, Scopes.declare_lowerAsciiString]

theorem declareNode_lowered (moduleId node : Nat) :
    declareNode module.lowered moduleId state.lowered node =
      (declareNode module moduleId state node).lowered := by
  have htree : module.lowered.tree = module.tree.lowered := rfl
  unfold declareNode
  rw [htree, SyntaxTree.declared?_lowered]
  cases hdeclared : module.tree.declared? node with
  | none => rfl
  | some declared =>
    have hkind : declared.kind ≠ .module := kind_ne_module_of_declared? hdeclared
    simp only [Option.map_some, SyntaxTree.enclosingProcedure?_lowered, publish_lowered]
    simp only [lowered, Array.size_map, Array.map_push]
    simp only [Declaration.lowered, if_neg hkind, Array.map_empty]
    rfl

theorem declareModule_lowered :
    state.lowered.declareModule module.lowered = (state.declareModule module).lowered := by
  have hsize : state.lowered.declarations.size = state.declarations.size := Array.size_map
  have htree : module.lowered.tree.preorder = module.tree.preorder :=
    module.tree.preorder_lowered
  rw [declareModule, declareModule, htree, hsize, beginModule_lowered]
  exact List.foldl_hom lowered fun state node ↦ declareNode_lowered state module _ node

theorem foldl_declareModule_lowered (modules : List ScopedModule) :
    (modules.map ScopedModule.lowered).foldl declareModule state.lowered =
      (modules.foldl declareModule state).lowered := by
  rw [List.foldl_map]
  refine List.foldl_hom lowered ?_
  intro state module
  exact declareModule_lowered state module

end Declaring

/-- A name that is searched for is no name in use. -/
theorem declaresName_of_isSearched {kind : NodeKind} {above : Option NodeKind}
    (h : kind.isSearched above = true) : above.any (·.declaresName) = true := by
  obtain ⟨-, habove⟩ := Bool.and_eq_true_iff.1 h
  rcases Bool.or_eq_true_iff.1 habove with habove | habove <;> rw [eq_of_beq habove] <;> rfl

theorem referenceAt?_lowered (scopes : Scopes) (module : ScopedModule) (id : Nat) :
    referenceAt? scopes module.lowered id =
      (referenceAt? scopes module id).map Reference.lowered := by
  have htree : module.lowered.tree = module.tree.lowered := rfl
  have hkind : module.tree.lowered.kind? = module.tree.kind? := funext module.tree.kind?_lowered
  unfold referenceAt?
  rw [htree, SyntaxTree.node?_lowered, SyntaxTree.parent?_lowered, hkind]
  cases hnode : module.tree.node? id with
  | none => rfl
  | some node =>
    have habove : node.parent.bind module.tree.kind? =
        (module.tree.parent? id).bind module.tree.kind? := by
      rw [SyntaxTree.parent?, hnode, Option.bind_some]
    simp only [Option.map_some, Option.bind_eq_bind, Option.bind_some, habove]
    generalize (module.tree.parent? id).bind module.tree.kind? = above
    have hsame : (node.lowered above).kind = node.kind := rfl
    rw [hsame]
    split
    · next huses =>
      have hplace : node.kind.isSearched above = false := by
        rw [← Bool.not_eq_true]
        intro hsearched
        simp [declaresName_of_isSearched hsearched] at huses
      have hname : module.lowered.name = module.name := rfl
      simp only [Node.lowered, hplace, Scopes.resolve?_lowerAsciiString,
        SyntaxTree.enclosingProcedure?_lowered, hname]
      cases scopes.resolve? module.name (module.tree.enclosingProcedure? id) node.text <;> rfl
    · rfl

theorem referencesOf_lowered (scopes : Scopes) (modules : List ScopedModule) :
    referencesOf scopes (modules.map ScopedModule.lowered) =
      (referencesOf scopes modules).map Reference.lowered := by
  have hmodule (module : ScopedModule) :
      module.lowered.tree.preorder.filterMap (referenceAt? scopes module.lowered) =
        (module.tree.preorder.filterMap (referenceAt? scopes module)).map Reference.lowered := by
    have hpreorder : module.lowered.tree.preorder = module.tree.preorder :=
      module.tree.preorder_lowered
    rw [hpreorder, List.map_filterMap]
    congr 1
    funext id
    exact referenceAt?_lowered scopes module id
  rw [referencesOf, referencesOf, List.flatMap_map, List.map_flatMap]
  congr 1
  funext module
  exact hmodule module

theorem addReference_lowered (declarations : Array Declaration) (reference : Reference) :
    addReference (declarations.map Declaration.lowered) reference.lowered =
      (addReference declarations reference).map Declaration.lowered := by
  apply Array.ext_getElem?
  intro id
  simp only [addReference, Array.getElem?_modify, Array.getElem?_map]
  split
  · next hid =>
    have htarget : reference.declaration = id := hid
    rw [if_pos htarget, Option.map_map, Option.map_map]
    congr 1
    funext declaration
    simp [Declaration.lowered]
  · next hid =>
    have htarget : reference.declaration ≠ id := hid
    rw [if_neg htarget]

/-- Binding the names of lowered trees gives the lowered declarations. -/
theorem bindNames_lowered (modules : List ScopedModule) :
    bindNames (modules.map ScopedModule.lowered) = (bindNames modules).map Declaration.lowered := by
  have hdeclared := Declaring.foldl_declareModule_lowered ⟨#[], .empty, ∅⟩ modules
  have hempty : Declaring.lowered ⟨#[], .empty, ∅⟩ = ⟨#[], .empty, ∅⟩ := by
    simp [Declaring.lowered]
  rw [hempty] at hdeclared
  rw [bindNames, bindNames, hdeclared, Declaring.lowered, referencesOf_lowered, List.foldl_map]
  refine List.foldl_hom (Array.map Declaration.lowered) ?_
  intro declarations reference
  exact addReference_lowered declarations reference

/-! ## Snapshots -/

def ModuleSource.lowered (module : ModuleSource) : ModuleSource :=
  { module with
    contentHash := ""
    parsed := module.parsed.lowered }

def Snapshot.lowered (snapshot : Snapshot) : Snapshot :=
  { snapshot with
    version := 0
    modules := snapshot.modules.map ModuleSource.lowered
    declarations := snapshot.declarations.map Declaration.lowered }

theorem find?_map_lowered (modules : List ModuleSource) (name : ModuleName) :
    (modules.map ModuleSource.lowered).find? (·.name == name) =
      (modules.find? (·.name == name)).map ModuleSource.lowered := List.find?_map

/-- Snapshots of one project have one lowered form if what is found under each name has. -/
theorem Snapshot.lowered_eq_of_module?_eq {version version' : Nat} {project : String}
    {left right : List ModuleSource}
    (h : ∀ name, ((ofModules version project left).module? name).map ModuleSource.lowered =
      ((ofModules version' project right).module? name).map ModuleSource.lowered) :
    (ofModules version project left).lowered = (ofModules version' project right).lowered := by
  have hordered (version : Nat) (modules : List ModuleSource) :
      ((ofModules version project modules).modules.map ModuleSource.lowered).Pairwise
        ModuleSource.Precedes :=
    List.pairwise_map.2 (pairwise_modules_ofModules version project modules)
  have hmodules : (ofModules version project left).modules.map ModuleSource.lowered =
      (ofModules version' project right).modules.map ModuleSource.lowered := by
    refine eq_of_find?_eq (hordered version left) (hordered version' right) ?_
    intro name
    rw [find?_map_lowered, find?_map_lowered]
    exact h name
  have hdeclarations (version : Nat) (modules : List ModuleSource) :
      (ofModules version project modules).declarations.map Declaration.lowered =
        bindNames (((ofModules version project modules).modules.map ModuleSource.lowered).map
          fun module ↦ ⟨module.name, module.type, module.parsed.tree⟩) := by
    rw [ofModules, ← bindNames_lowered, List.map_map, List.map_map]
    rfl
  rw [lowered, lowered, hdeclarations, hdeclarations, hmodules]
  rfl

/-! ## Texts -/

def ModuleText.lowered (module : ModuleText) : ModuleText :=
  { module with text := lowerAsciiString module.text }

theorem ModuleText.source_lowered (project : String) (module : ModuleText) :
    (module.lowered.source project).lowered = (module.source project).lowered := by
  simp only [source, lowered, ModuleSource.lowered, lowered_readModule]

/-- Projects with the same components, of the same types and with texts that differ in the case of
ASCII letters alone, have snapshots with one lowered form. -/
theorem Assembly.lowered_build_eq {project : String} {left right : List ModuleText}
    (h : ∀ component, (left.reverse.find? (·.component == component)).map ModuleText.lowered =
      (right.reverse.find? (·.component == component)).map ModuleText.lowered)
    (version version' : Nat) :
    ((ofModules project left).build version).lowered =
      ((ofModules project right).build version').lowered := by
  have hmodule (modules : List ModuleText) (version : Nat) (component : String) :
      (((ofModules project modules).build version).module? ⟨project, component⟩).map
          ModuleSource.lowered =
        ((modules.reverse.find? (·.component == component)).map ModuleText.lowered).map
          fun module ↦ (module.source project).lowered := by
    rw [module?_build, Option.map_map, Option.map_map]
    refine Option.map_congr fun module _ ↦ ?_
    rw [Function.comp_apply, Function.comp_apply, ModuleText.source_lowered]
  have hforeign (modules : List ModuleText) (version : Nat) {name : ModuleName}
      (hname : name.project ≠ project) :
      ((ofModules project modules).build version).module? name = none := by
    rw [Option.eq_none_iff_forall_ne_some]
    intro source hsource
    exact hname (project_eq_of_module?_build hsource)
  have hsnapshot (modules : List ModuleText) (version : Nat) :
      (ofModules project modules).build version =
        .ofModules version project
          ((ofModules project modules).modules.map (·.source project)) := by
    rw [build_eq_snapshot (nodup_components project modules), snapshot, project_ofModules]
  have hfound (name : ModuleName) :
      (((ofModules project left).build version).module? name).map ModuleSource.lowered =
        (((ofModules project right).build version').module? name).map ModuleSource.lowered := by
    obtain ⟨project', component⟩ := name
    by_cases hname : project' = project
    · subst hname
      rw [hmodule, hmodule, h]
    · rw [hforeign left version hname, hforeign right version' hname]
  simp only [hsnapshot] at hfound ⊢
  exact Snapshot.lowered_eq_of_module?_eq hfound

end VbaLint
