import VbaLint.Proofs.ListLemmas
import VbaLint.Proofs.Project.Visibility
import VbaLint.Proofs.Tree.Preorder

/-!
# Names are bound by scope

Every identifier in use is a reference to the declaration that is visible where it stands, or to
nothing if there is none, and there are no other references.
-/

namespace VbaLint

open Source Text Tree

namespace ScopedModule

/-- The node is an identifier in use: not the one that names the declaration above it. -/
structure Uses (module : ScopedModule) (id : Nat) (node : Node) : Prop where
  node_eq : module.tree.node? id = some node
  kind_eq : node.kind = .identifier
  not_naming : ((module.tree.parent? id).bind module.tree.kind?).any (·.declaresName) = false

/-- The identifier as a reference to the declaration with the number `target`. -/
def referenceTo (module : ScopedModule) (id : Nat) (node : Node) (target : Nat) : Reference :=
  let parentKind := (module.tree.parent? id).bind module.tree.kind?
  { module := module.name
    node := id
    selection := node.selection
    identifier := node.text
    isAssignment := parentKind == some .letStmt || parentKind == some .setStmt
    declaration := target }

def visibleAt? (modules : List ScopedModule) (module : ScopedModule) (id : Nat) (node : Node) :
    Option Nat :=
  visible? modules (bindNames modules) module.name (module.tree.enclosingProcedure? id) node.text

end ScopedModule

def Declaration.withoutReferences (declaration : Declaration) : Declaration :=
  { declaration with references := #[] }

/-! ## References before they are added -/

section References

variable {scopes : Scopes} {module : ScopedModule}

theorem referenceAt?_of_uses {id : Nat} {node : Node} (h : module.Uses id node) :
    referenceAt? scopes module id =
      (scopes.resolve? module.name (module.tree.enclosingProcedure? id) node.text).map
        (module.referenceTo id node) := by
  simp only [referenceAt?, h.node_eq, h.kind_eq, h.not_naming, Option.bind_eq_bind,
    Option.bind_some]
  cases scopes.resolve? module.name (module.tree.enclosingProcedure? id) node.text <;> rfl

theorem uses_of_referenceAt? {id : Nat} {reference : Reference}
    (h : referenceAt? scopes module id = some reference) :
    ∃ node target, module.Uses id node ∧
      scopes.resolve? module.name (module.tree.enclosingProcedure? id) node.text = some target ∧
      reference = module.referenceTo id node target := by
  obtain ⟨node, hnode, h⟩ := Option.bind_eq_some_iff.1 h
  dsimp only at h
  split at h
  · next huse =>
    simp only [Bool.and_eq_true, decide_eq_true_eq, Bool.not_eq_true'] at huse
    obtain ⟨target, htarget, h⟩ := Option.bind_eq_some_iff.1 h
    exact ⟨node, target, ⟨hnode, huse.1, huse.2⟩, htarget, (Option.some.inj h).symm⟩
  · cases h

/-- A reference stands where its identifier stands. -/
theorem place_of_referenceAt? {id : Nat} {reference : Reference}
    (h : referenceAt? scopes module id = some reference) :
    reference.module = module.name ∧ reference.node = id := by
  obtain ⟨node, target, -, -, rfl⟩ := uses_of_referenceAt? h
  exact ⟨rfl, rfl⟩

/-- Of all references those at one node of one module are what that node makes. -/
theorem filter_referencesOf {modules : List ScopedModule}
    (hnames : (modules.map (·.name)).Nodup) (hmodule : module ∈ modules) {id : Nat}
    (hid : id < module.tree.size) :
    (referencesOf scopes modules).filter
        (fun reference ↦ reference.module == module.name && reference.node == id) =
      (referenceAt? scopes module id).toList := by
  have hagree (node : Nat) (reference : Reference)
      (h : referenceAt? scopes module node = some reference) :
      (reference.module == module.name && reference.node == id) = (node == id) := by
    obtain ⟨hplace, hnode⟩ := place_of_referenceAt? h
    rw [hplace, hnode, beq_self_eq_true, Bool.true_and]
  have hothers (other : ScopedModule) (hother : other ∈ modules) (hne : other ≠ module) :
      (other.tree.preorder.filterMap (referenceAt? scopes other)).filter
        (fun reference ↦ reference.module == module.name && reference.node == id) = [] := by
    apply List.filter_eq_nil_iff.2
    intro reference hreference
    obtain ⟨node, -, h⟩ := List.mem_filterMap.1 hreference
    have hname : other.name ≠ module.name := fun heq ↦
      hne (List.inj_on_of_nodup_map hnames hother hmodule heq)
    rw [(place_of_referenceAt? h).1, beq_eq_false_iff_ne.2 hname, Bool.false_and]
    exact Bool.false_ne_true
  rw [referencesOf, List.filter_flatMap, flatMap_of_single hnames.of_map hmodule hothers,
    filter_filterMap_of_agree hagree,
    filter_beq_of_nodup module.tree.nodup_preorder (SyntaxTree.mem_preorder.2 hid)]
  cases hreference : referenceAt? scopes module id with
  | none => simp [hreference]
  | some reference => simp [hreference]

/-! ## References as they are added -/

/-- References are added at the end, to the declaration that each names. -/
theorem getElem?_foldl_addReference (references : List Reference)
    (declarations : Array Declaration) (id : Nat) :
    (references.foldl addReference declarations)[id]? =
      declarations[id]?.map fun declaration ↦
        { declaration with
          references :=
            declaration.references ++ (references.filter (·.declaration == id)).toArray } := by
  induction references generalizing declarations with
  | nil =>
    rw [List.foldl_nil]
    cases declarations[id]? with
    | none => rfl
    | some declaration => simp
  | cons reference rest ih =>
    rw [List.foldl_cons, ih, addReference, Array.getElem?_modify, List.filter_cons]
    by_cases h : reference.declaration = id
    · rw [if_pos h, Option.map_map, if_pos (beq_iff_eq.2 h)]
      congr 1
      funext declaration
      simp
    · rw [if_neg h, if_neg (by simpa using h)]

/-- A declaration has the references that name it, one after the other. -/
theorem getElem?_bindNames {modules : List ScopedModule} (hnames : (modules.map (·.name)).Nodup)
    (id : Nat) :
    (bindNames modules)[id]? =
      (Declaring.ofModules modules).declarations[id]?.map fun declaration ↦
        { declaration with
          references :=
            ((referencesOf (Declaring.ofModules modules).scopes modules).filter
              (·.declaration == id)).toArray } := by
  have hfold := getElem?_foldl_addReference
    (referencesOf (Declaring.ofModules modules).scopes modules)
    (Declaring.ofModules modules).declarations id
  refine hfold.trans ?_
  cases hdeclaration : (Declaring.ofModules modules).declarations[id]? with
  | none => rfl
  | some declaration =>
    have hreferences := ((Declaring.faithful_ofModules hnames).isNew hdeclaration).references_eq
    rw [Option.map_some, Option.map_some, hreferences, Array.empty_append]

/-- Names are looked up in the same way with and without references. -/
theorem firstIn?_withoutReferences (modules : List ScopedModule)
    (declarations : Array Declaration) (scope : Scope) (name : String) :
    firstIn? modules (declarations.map (·.withoutReferences)) scope name =
      firstIn? modules declarations scope name := by
  rw [firstIn?, Array.findIdx?_map]
  rfl

/-- Binding adds references and changes nothing else. -/
theorem map_withoutReferences_bindNames {modules : List ScopedModule}
    (hnames : (modules.map (·.name)).Nodup) :
    (bindNames modules).map (·.withoutReferences) = (Declaring.ofModules modules).declarations := by
  apply Array.ext_getElem?
  intro id
  rw [Array.getElem?_map, getElem?_bindNames hnames, Option.map_map]
  cases hdeclaration : (Declaring.ofModules modules).declarations[id]? with
  | none => rfl
  | some declaration =>
    have hreferences := ((Declaring.faithful_ofModules hnames).isNew hdeclaration).references_eq
    rw [Option.map_some]
    simp [Declaration.withoutReferences, ← hreferences]

/-- References do not matter for what is visible. -/
theorem visible?_bindNames {modules : List ScopedModule} (hnames : (modules.map (·.name)).Nodup)
    (module : ModuleName) (procedure : Option Nat) (name : String) :
    visible? modules (bindNames modules) module procedure name =
      visible? modules (Declaring.ofModules modules).declarations module procedure name := by
  rw [← map_withoutReferences_bindNames hnames]
  simp only [visible?, firstIn?_withoutReferences]

/-- The tables resolve a name to the declaration that is visible in the end. -/
theorem resolve?_ofModules {modules : List ScopedModule} (hnames : (modules.map (·.name)).Nodup)
    (module : ModuleName) (procedure : Option Nat) (name : String) :
    (Declaring.ofModules modules).scopes.resolve? module procedure name =
      visible? modules (bindNames modules) module procedure name := by
  rw [(Declaring.faithful_ofModules hnames).resolve?_eq, visible?_bindNames hnames]

end References

/-! ## What is bound to what -/

section Bound

variable {modules : List ScopedModule} {module : ScopedModule} {declaration : Declaration}

/-- What is found in a scope is a declaration that the scope knows. -/
theorem exists_of_firstIn? {declarations : Array Declaration} {scope : Scope} {name : String}
    {target : Nat} (h : firstIn? modules declarations scope name = some target) :
    ∃ declaration, declarations[target]? = some declaration ∧
      isKnownIn modules declaration scope := by
  obtain ⟨hlt, hfound, -⟩ := Array.findIdx?_eq_some_iff_getElem.1 h
  rw [Bool.and_eq_true] at hfound
  exact ⟨declarations[target], Array.getElem?_eq_getElem hlt, hfound.2⟩

/-- What is visible is a declaration that the procedure, the module or the project knows. -/
theorem exists_of_visible? {declarations : Array Declaration} {name : ModuleName}
    {procedure : Option Nat} {text : String} {target : Nat}
    (h : visible? modules declarations name procedure text = some target) :
    ∃ declaration, declarations[target]? = some declaration ∧
      ((∃ node, procedure = some node ∧ isKnownIn modules declaration (.procedure name node)) ∨
        isKnownIn modules declaration (.module name) ∨
        isKnownIn modules declaration .project) := by
  rcases Option.or_eq_some_iff.1 h with hprocedure | ⟨-, h⟩
  · obtain ⟨node, hnode, hfirst⟩ := Option.bind_eq_some_iff.1 hprocedure
    obtain ⟨declaration, hdeclaration, hknown⟩ := exists_of_firstIn? hfirst
    exact ⟨declaration, hdeclaration, .inl ⟨node, hnode, hknown⟩⟩
  rcases Option.or_eq_some_iff.1 h with hmodule | ⟨-, hproject⟩
  · obtain ⟨declaration, hdeclaration, hknown⟩ := exists_of_firstIn? hmodule
    exact ⟨declaration, hdeclaration, .inr (.inl hknown)⟩
  · obtain ⟨declaration, hdeclaration, hknown⟩ := exists_of_firstIn? hproject
    exact ⟨declaration, hdeclaration, .inr (.inr hknown)⟩

/-- An identifier in use is listed once, by the declaration that is visible there. -/
theorem filter_references (hnames : (modules.map (·.name)).Nodup) (hmodule : module ∈ modules)
    {id : Nat} {node : Node} (huses : module.Uses id node) {target : Nat}
    (htarget : (bindNames modules)[target]? = some declaration) :
    declaration.references.toList.filter
        (fun reference ↦ reference.module == module.name && reference.node == id) =
      if module.visibleAt? modules id node = some target then [module.referenceTo id node target]
      else [] := by
  have hid : id < module.tree.size := (Array.getElem?_eq_some_iff.1 huses.node_eq).1
  rw [getElem?_bindNames hnames] at htarget
  obtain ⟨bare, -, rfl⟩ := Option.map_eq_some_iff.1 htarget
  rw [List.filter_comm, filter_referencesOf hnames hmodule hid, referenceAt?_of_uses huses,
    resolve?_ofModules hnames]
  change ((module.visibleAt? modules id node).map _).toList.filter _ = _
  cases module.visibleAt? modules id node with
  | none => rfl
  | some visible =>
    by_cases h : visible = target
    · subst h
      simp [ScopedModule.referenceTo]
    · simp [ScopedModule.referenceTo, h]

/-- Every reference of a declaration is an identifier in use at which the declaration is visible. -/
theorem exists_of_mem_references (hnames : (modules.map (·.name)).Nodup) {target : Nat}
    (htarget : (bindNames modules)[target]? = some declaration) {reference : Reference}
    (hreference : reference ∈ declaration.references) :
    ∃ module ∈ modules, ∃ node, module.Uses reference.node node ∧
      module.visibleAt? modules reference.node node = some target ∧
      reference = module.referenceTo reference.node node target := by
  rw [getElem?_bindNames hnames] at htarget
  obtain ⟨bare, -, rfl⟩ := Option.map_eq_some_iff.1 htarget
  obtain ⟨hlisted, hnamed⟩ := List.mem_filter.1 (List.mem_toArray.1 hreference)
  obtain ⟨module, hmodule, hmade⟩ := List.mem_flatMap.1 hlisted
  obtain ⟨id, -, hat⟩ := List.mem_filterMap.1 hmade
  obtain ⟨node, visible, huses, hvisible, rfl⟩ := uses_of_referenceAt? hat
  have hsame : visible = target := beq_iff_eq.1 hnamed
  subst hsame
  rw [resolve?_ofModules hnames] at hvisible
  exact ⟨module, hmodule, node, huses, hvisible, rfl⟩

/-- A local name is used in its procedure alone. -/
theorem enclosingProcedure?_of_local {procedure : Nat}
    (hlocal : localTo? modules declaration = some procedure) {id : Nat} {node : Node}
    {target : Nat} (htarget : (bindNames modules)[target]? = some declaration)
    (hvisible : module.visibleAt? modules id node = some target) :
    module.name = declaration.module ∧ module.tree.enclosingProcedure? id = some procedure := by
  obtain ⟨found, hfound, hknown⟩ := exists_of_visible? hvisible
  cases htarget.symm.trans hfound
  simp only [isKnownIn_of_local hlocal, reduceCtorEq, or_false, Scope.procedure.injEq] at hknown
  obtain ⟨node, hnode, hname, rfl⟩ := hknown
  exact ⟨hname, hnode⟩

/-- A private name is used in its module alone. -/
theorem name_eq_of_private (hnames : (modules.map (·.name)).Nodup)
    (hprivate : declaration.isPublic = false) {id : Nat} {node : Node} {target : Nat}
    (htarget : (bindNames modules)[target]? = some declaration)
    (hvisible : module.visibleAt? modules id node = some target) :
    module.name = declaration.module := by
  obtain ⟨found, hfound, hknown⟩ := exists_of_visible? hvisible
  cases htarget.symm.trans hfound
  have hmodule : declaration.kind ≠ .module := by
    rw [getElem?_bindNames hnames] at htarget
    obtain ⟨bare, hbare, rfl⟩ := Option.map_eq_some_iff.1 htarget
    intro hkind
    have hpublic := ((Declaring.faithful_ofModules hnames).isNew hbare).isPublic_of_module hkind
    exact Bool.false_ne_true (hprivate.symm.trans hpublic)
  rcases hknown with ⟨procedure, -, hknown⟩ | hknown | hknown
  · rw [isKnownIn, Bool.and_eq_true, beq_iff_eq] at hknown
    exact hknown.1.symm
  · rw [isKnownIn, Bool.and_eq_true, Bool.and_eq_true, beq_iff_eq] at hknown
    exact hknown.1.1.symm
  · simp [isKnownIn, hmodule, hprivate] at hknown

end Bound

/-- Names are bound by scope. Wherever an identifier is in use, it is on record as one reference of the
declaration that is visible there, and of no other; if none is visible it is on record nowhere. There
are no further references: so a local name is used in its procedure alone, and a private one in its
module alone. -/
theorem references_follow_scoping (modules : List ScopedModule)
    (hnames : (modules.map (·.name)).Nodup) :
    (∀ module ∈ modules, ∀ id node, module.Uses id node →
      (∀ target, module.visibleAt? modules id node = some target →
        target < (bindNames modules).size) ∧
      ∀ target declaration, (bindNames modules)[target]? = some declaration →
        declaration.references.toList.filter
            (fun reference ↦ reference.module == module.name && reference.node == id) =
          if module.visibleAt? modules id node = some target then
            [module.referenceTo id node target]
          else []) ∧
    ∀ target declaration, (bindNames modules)[target]? = some declaration →
      declaration.id = target ∧
      ∀ reference ∈ declaration.references,
        (∃ module ∈ modules, ∃ node, module.Uses reference.node node ∧
          module.visibleAt? modules reference.node node = some target ∧
          reference = module.referenceTo reference.node node target ∧
          ∀ procedure, localTo? modules declaration = some procedure →
            module.name = declaration.module ∧
              module.tree.enclosingProcedure? reference.node = some procedure) ∧
        (declaration.isPublic = false → reference.module = declaration.module) := by
  constructor
  · intro module hmodule id node huses
    constructor
    · intro target hvisible
      obtain ⟨declaration, hdeclaration, -⟩ := exists_of_visible? hvisible
      exact (Array.getElem?_eq_some_iff.1 hdeclaration).1
    · intro target declaration htarget
      exact filter_references hnames hmodule huses htarget
  · intro target declaration htarget
    constructor
    · rw [getElem?_bindNames hnames] at htarget
      obtain ⟨bare, hbare, rfl⟩ := Option.map_eq_some_iff.1 htarget
      have hid := ((Declaring.faithful_ofModules hnames).isNew hbare).id_eq
      exact hid
    · intro reference hreference
      obtain ⟨module, hmodule, node, huses, hvisible, hmade⟩ :=
        exists_of_mem_references hnames htarget hreference
      constructor
      · refine ⟨module, hmodule, node, huses, hvisible, hmade, ?_⟩
        intro procedure hlocal
        exact enclosingProcedure?_of_local hlocal htarget hvisible
      · intro hprivate
        have hname := name_eq_of_private hnames hprivate htarget hvisible
        rw [hmade]
        exact hname

/-! ## A name that is shadowed -/

/-- A standard module with a public variable `total`. -/
def sharedModule : ScopedModule where
  name := ⟨"Book", "Shared"⟩
  type := .standardModule
  tree :=
    ((((SyntaxTree.ofRoot "Shared" .unset).addChild 0 .moduleDeclarations .unset "").addChild 1
      .variableStmt .unset "Public total").addChild 2 .variableSubStmt .unset "total").addChild 3
        .identifier .unset "total"

/-- A module with a local variable `total`, used in its procedure and once more outside. -/
def shadowingModule : ScopedModule where
  name := ⟨"Book", "Shadowing"⟩
  type := .classModule
  tree :=
    ((((((((((SyntaxTree.ofRoot "Shadowing" .unset).addChild 0 .moduleBody .unset "").addChild 1
      .subStmt .unset "Sub Run()").addChild 2 .identifier .unset "Run").addChild 2
        .variableStmt .unset "Dim total").addChild 4 .variableSubStmt .unset "total").addChild 5
          .identifier .unset "total").addChild 2 .letStmt .unset "Total = 1").addChild 7
            .identifier .unset "Total").addChild 1 .letStmt .unset "TOTAL = 2").addChild 9
              .identifier .unset "TOTAL"

theorem references_follow_scoping_shadowed :
    ([sharedModule, shadowingModule].map (·.name)).Nodup ∧
      ∀ target declaration,
        (bindNames [sharedModule, shadowingModule])[target]? = some declaration →
        declaration.references.toList.filter
            (fun reference ↦ reference.module == shadowingModule.name && reference.node == 8) =
          (if some 4 = some target then
            [⟨shadowingModule.name, 8, .unset, "Total", true, target⟩]
          else []) ∧
        declaration.references.toList.filter
            (fun reference ↦ reference.module == shadowingModule.name && reference.node == 10) =
          if some 1 = some target then
            [⟨shadowingModule.name, 10, .unset, "TOTAL", true, target⟩]
          else [] := by
  have hnames : ([sharedModule, shadowingModule].map (·.name)).Nodup := by decide
  have hbound := (references_follow_scoping _ hnames).1 shadowingModule (by simp)
  have hinside : shadowingModule.Uses 8 ⟨.identifier, .unset, "Total", some 7, #[]⟩ :=
    ⟨rfl, rfl, rfl⟩
  have houtside : shadowingModule.Uses 10 ⟨.identifier, .unset, "TOTAL", some 9, #[]⟩ :=
    ⟨rfl, rfl, rfl⟩
  have hlocal : shadowingModule.visibleAt? [sharedModule, shadowingModule] 8
      ⟨.identifier, .unset, "Total", some 7, #[]⟩ = some 4 := by
    rw [ScopedModule.visibleAt?, visible?_bindNames hnames]
    decide +kernel
  have hshared : shadowingModule.visibleAt? [sharedModule, shadowingModule] 10
      ⟨.identifier, .unset, "TOTAL", some 9, #[]⟩ = some 1 := by
    rw [ScopedModule.visibleAt?, visible?_bindNames hnames]
    decide +kernel
  refine ⟨hnames, ?_⟩
  intro target declaration htarget
  constructor
  · rw [(hbound 8 _ hinside).2 target declaration htarget, hlocal]
    rfl
  · rw [(hbound 10 _ houtside).2 target declaration htarget, hshared]
    rfl

end VbaLint
