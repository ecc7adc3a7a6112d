import VbaLint.Project.Scope

/-!
# Visible declarations

A local name is known in its procedure, any other name in its module, and module names and the public
names of standard modules in the whole project. The tables of names that are filled while declarations
are made say the same as the list of declarations does afterwards: in each scope the first declaration
of a name that the scope knows.
-/

namespace VbaLint

open Source Text Tree

/-- The module of the list that the declaration stands in. -/
def homeOf? (modules : List ScopedModule) (declaration : Declaration) : Option ScopedModule :=
  modules.find? fun module ↦ module.name == declaration.module

/-- The procedure in which the name is local: the nearest one around the declaration. Names of modules
and members are local nowhere. -/
def localTo? (modules : List ScopedModule) (declaration : Declaration) : Option Nat :=
  if declaration.kind == .module || declaration.kind.isMember then none
  else (homeOf? modules declaration).bind (·.tree.enclosingProcedure? declaration.node)

def isKnownIn (modules : List ScopedModule) (declaration : Declaration) : Scope → Bool
  | .procedure name procedure =>
    declaration.module == name && localTo? modules declaration == some procedure
  | .module name =>
    declaration.module == name && declaration.kind != .module &&
      (localTo? modules declaration).isNone
  | .project =>
    declaration.kind == .module ||
      (declaration.isPublic && (localTo? modules declaration).isNone &&
        (homeOf? modules declaration).any (·.type.exposesPublicMembers))

/-- The lowest number of a declaration of the name that the scope knows. -/
def firstIn? (modules : List ScopedModule) (declarations : Array Declaration) (scope : Scope)
    (name : String) : Option Nat :=
  declarations.findIdx? fun declaration ↦
    lowerAsciiString declaration.name == lowerAsciiString name &&
      isKnownIn modules declaration scope

/-- The declaration that a name stands for in a procedure of a module, or outside all procedures: the
first in the procedure, or else the first in the module, or else the first in the project. -/
def visible? (modules : List ScopedModule) (declarations : Array Declaration) (module : ModuleName)
    (procedure : Option Nat) (name : String) : Option Nat :=
  (procedure.bind fun node ↦ firstIn? modules declarations (.procedure module node) name).or <|
    (firstIn? modules declarations (.module module) name).or
      (firstIn? modules declarations .project name)

section Known

variable {modules : List ScopedModule} {declaration : Declaration}

theorem module_eq_of_homeOf? {module : ScopedModule}
    (h : homeOf? modules declaration = some module) : declaration.module = module.name := by
  have hname := List.find?_some h
  exact (beq_iff_eq.1 hname).symm

/-- Among modules with different names a declaration has the one it names as its home. -/
theorem homeOf?_eq_some (hnames : (modules.map (·.name)).Nodup) {module : ScopedModule}
    (hmodule : module ∈ modules) (h : declaration.module = module.name) :
    homeOf? modules declaration = some module := by
  rw [homeOf?, h]
  induction modules with
  | nil => cases hmodule
  | cons first rest ih =>
    obtain ⟨hfirst, hrest⟩ := List.nodup_cons.1 hnames
    rcases List.mem_cons.1 hmodule with rfl | hmem
    · simp
    · have hne : first.name ≠ module.name := by
        intro heq
        exact hfirst (List.mem_map.2 ⟨module, hmem, heq.symm⟩)
      rw [List.find?_cons, beq_eq_false_iff_ne.2 hne]
      exact ih hrest hmem

theorem localTo?_of_homeOf? (hkind : declaration.kind ≠ .module) {module : ScopedModule}
    (hhome : homeOf? modules declaration = some module) :
    localTo? modules declaration =
      if declaration.kind.isMember then none
      else module.tree.enclosingProcedure? declaration.node := by
  rw [localTo?, hhome, Option.bind_some, beq_eq_false_iff_ne.2 hkind, Bool.false_or]

/-- The name of a module is known in the project alone. -/
theorem isKnownIn_of_module (h : declaration.kind = .module) {scope : Scope} :
    isKnownIn modules declaration scope ↔ scope = .project := by
  cases scope with
  | project => simp [isKnownIn, h]
  | module name => simp [isKnownIn, h]
  | procedure name node => simp [isKnownIn, localTo?, h]

theorem kind_ne_module_of_local {procedure : Nat}
    (h : localTo? modules declaration = some procedure) : declaration.kind ≠ .module := by
  intro hmodule
  rw [localTo?, hmodule] at h
  cases h

/-- A local name is known in its procedure alone. -/
theorem isKnownIn_of_local {procedure : Nat}
    (h : localTo? modules declaration = some procedure) {scope : Scope} :
    isKnownIn modules declaration scope ↔ scope = .procedure declaration.module procedure := by
  cases scope with
  | project => simp [isKnownIn, h, kind_ne_module_of_local h]
  | module name => simp [isKnownIn, h]
  | procedure name node =>
    simp only [isKnownIn, h, Bool.and_eq_true, beq_iff_eq, Option.some.injEq,
      Scope.procedure.injEq]
    constructor
    · rintro ⟨rfl, rfl⟩
      exact ⟨rfl, rfl⟩
    · rintro ⟨rfl, rfl⟩
      exact ⟨rfl, rfl⟩

/-- Any other name is known in its module, and in the project if a standard module makes it public. -/
theorem isKnownIn_of_shared (hkind : declaration.kind ≠ .module)
    (h : localTo? modules declaration = none) {module : ScopedModule}
    (hhome : homeOf? modules declaration = some module) {scope : Scope} :
    isKnownIn modules declaration scope ↔
      scope = .module declaration.module ∨
        (scope = .project ∧ module.type.exposesPublicMembers ∧ declaration.isPublic) := by
  cases scope with
  | project => simp [isKnownIn, h, hkind, hhome, and_comm]
  | module name =>
    simp only [isKnownIn, h, Bool.and_eq_true, beq_iff_eq, bne_iff_ne, ne_eq, hkind,
      not_false_eq_true, and_true, Option.isNone_none, Scope.module.injEq, reduceCtorEq,
      false_and, or_false]
    exact eq_comm
  | procedure name node => simp [isKnownIn, h]

end Known

namespace Scopes

@[simp]
theorem find?_empty (scope : Scope) (name : String) : empty.find? scope name = none := by
  simp [find?, empty]

/-- A table keeps the first declaration of a name. -/
theorem find?_declare (scopes : Scopes) (declaring scope : Scope) (declared name : String)
    (id : Nat) :
    (scopes.declare declaring declared id).find? scope name =
      (scopes.find? scope name).or
        (if lowerAsciiString declared = lowerAsciiString name ∧ scope = declaring then some id
        else none) := by
  simp only [find?, declare, Std.HashMap.getElem?_insertIfNew, beq_iff_eq, Prod.mk.injEq]
  by_cases hsame : lowerAsciiString declared = lowerAsciiString name ∧ scope = declaring
  · obtain ⟨hname, rfl⟩ := hsame
    rw [hname]
    cases hfound : scopes.table[(scope, lowerAsciiString name)]? with
    | none =>
      have hnew : (scope, lowerAsciiString name) ∉ scopes.table := by
        rw [← Std.HashMap.isSome_getElem?_iff_mem, hfound]
        exact Bool.false_ne_true
      simp [hnew]
    | some first =>
      have hold : (scope, lowerAsciiString name) ∈ scopes.table := by
        rw [← Std.HashMap.isSome_getElem?_iff_mem, hfound]
        rfl
      simp [hold]
  · rw [if_neg fun h ↦ hsame ⟨h.1.2, h.1.1.symm⟩, if_neg hsame, Option.or_none]

end Scopes

/-- What a member declares is told by its kind. -/
theorem kind_of_declaredMember? {tree : SyntaxTree} {id : Nat} {node : Node} {declared : Declared}
    (h : tree.declaredMember? id node = some declared) :
    declared.kind = memberDeclarationKind node.kind := by
  obtain ⟨signature, -, h⟩ := Option.bind_eq_some_iff.1 h
  obtain ⟨name, -, h⟩ := Option.bind_eq_some_iff.1 h
  cases h
  rfl

theorem kind_of_declaredParameter? {tree : SyntaxTree} {id : Nat} {node : Node}
    {declared : Declared} (h : tree.declaredParameter? id node = some declared) :
    declared.kind = .parameter := by
  obtain ⟨parameter, -, h⟩ := Option.bind_eq_some_iff.1 h
  obtain ⟨name, -, h⟩ := Option.bind_eq_some_iff.1 h
  cases h
  rfl

theorem kind_of_declaredVariable? {tree : SyntaxTree} {id : Nat} {node : Node}
    {declared : Declared} (h : tree.declaredVariable? id node = some declared) :
    declared.kind = .variableItem := by
  obtain ⟨item, -, h⟩ := Option.bind_eq_some_iff.1 h
  obtain ⟨name, -, h⟩ := Option.bind_eq_some_iff.1 h
  cases h
  rfl

theorem kind_of_declaredConstant? {tree : SyntaxTree} {id : Nat} {declared : Declared}
    (h : tree.declaredConstant? id = some declared) : declared.kind = .constantItem := by
  obtain ⟨name, -, h⟩ := Option.bind_eq_some_iff.1 h
  cases h
  rfl

/-- A block declares a type or an enumeration. -/
theorem kind_of_declaredBlock? {tree : SyntaxTree} {id : Nat} {node : Node} {declared : Declared}
    (h : tree.declaredBlock? id node = some declared) :
    declared.kind = if node.kind = .typeStmt then .userDefinedType else .enumeration := by
  obtain ⟨name, -, h⟩ := Option.bind_eq_some_iff.1 h
  cases h
  rfl

/-- No node declares a module. -/
theorem kind_ne_module_of_declared? {tree : SyntaxTree} {id : Nat} {declared : Declared}
    (h : tree.declared? id = some declared) : declared.kind ≠ .module := by
  obtain ⟨node, -, h⟩ := Option.bind_eq_some_iff.1 h
  split at h
  case h_6 =>
    rw [kind_of_declaredParameter? h]
    exact DeclarationKind.noConfusion
  case h_7 =>
    rw [kind_of_declaredVariable? h]
    exact DeclarationKind.noConfusion
  case h_8 =>
    rw [kind_of_declaredConstant? h]
    exact DeclarationKind.noConfusion
  case h_9 | h_10 =>
    rw [kind_of_declaredBlock? h]
    split <;> exact DeclarationKind.noConfusion
  case h_11 => cases h
  all_goals
    rw [kind_of_declaredMember? h]
    cases node.kind <;> exact DeclarationKind.noConfusion

namespace Declaring

/-- The declaration as it is made at the place `id`. -/
structure IsNew (id : Nat) (declaration : Declaration) : Prop where
  id_eq : declaration.id = id
  references_eq : declaration.references = #[]
  isPublic_of_module : declaration.kind = .module → declaration.isPublic

/-- The table says of every scope and name what the list of declarations says. -/
structure Faithful (modules : List ScopedModule) (state : Declaring) : Prop where
  find?_eq (scope : Scope) (name : String) :
    state.scopes.find? scope name = firstIn? modules state.declarations scope name
  isNew {id : Nat} {declaration : Declaration} :
    state.declarations[id]? = some declaration → IsNew id declaration

variable {modules : List ScopedModule} {module : ScopedModule}

theorem publish_of_local (scopes : Scopes) {declared : Declared} (id procedure : Nat)
    (h : declared.kind.isMember = false) :
    publish scopes module (some procedure) declared id =
      scopes.declare (.procedure module.name procedure) declared.name id := by
  rw [publish]
  exact h

theorem publish_of_shared (scopes : Scopes) {declared : Declared} (id : Nat)
    {enclosing : Option Nat} (h : enclosing = none ∨ declared.kind.isMember) :
    publish scopes module enclosing declared id =
      if module.type.exposesPublicMembers && declared.isPublic then
        (scopes.declare (.module module.name) declared.name id).declare .project declared.name id
      else scopes.declare (.module module.name) declared.name id := by
  rcases h with rfl | h
  · rw [publish]
    rintro procedure ⟨⟩
  · rw [publish]
    intro procedure _ hlocal
    rw [h] at hlocal
    cases hlocal

/-- A declaration of a node becomes known where it is to be known. -/
theorem find?_publish (scopes : Scopes) {declared : Declared} {declaration : Declaration}
    {node : Nat} (hnode : declaration.node = node) (hname : declaration.name = declared.name)
    (hkind : declaration.kind = declared.kind) (hpublic : declaration.isPublic = declared.isPublic)
    (hmodule : declaration.kind ≠ .module) (hhome : homeOf? modules declaration = some module)
    (id : Nat) (scope : Scope) (name : String) :
    (publish scopes module (module.tree.enclosingProcedure? node) declared id).find? scope name =
      (scopes.find? scope name).or
        (if lowerAsciiString declaration.name == lowerAsciiString name &&
            isKnownIn modules declaration scope then some id
        else none) := by
  have hplace : declaration.module = module.name := module_eq_of_homeOf? hhome
  have hlocal : localTo? modules declaration =
      if declared.kind.isMember then none else module.tree.enclosingProcedure? node := by
    rw [localTo?_of_homeOf? hmodule hhome, hkind, hnode]
  simp only [Bool.and_eq_true, beq_iff_eq]
  by_cases hshared : module.tree.enclosingProcedure? node = none ∨ declared.kind.isMember = true
  · have hnone : localTo? modules declaration = none := by
      rw [hlocal]
      split
      · rfl
      · next hmember => exact hshared.resolve_right hmember
    rw [publish_of_shared scopes id hshared]
    simp only [isKnownIn_of_shared hmodule hnone hhome, hplace, hname, hpublic, Bool.and_eq_true]
    split
    · next hexposed =>
      rw [Scopes.find?_declare, Scopes.find?_declare, Option.or_assoc]
      congr 1
      cases scope <;> simp [hexposed]
    · next hhidden =>
      rw [Scopes.find?_declare]
      simp only [hhidden, and_false, or_false]
  · obtain ⟨hsome, hmember⟩ := not_or.1 hshared
    obtain ⟨procedure, hprocedure⟩ := Option.ne_none_iff_exists'.1 hsome
    rw [if_neg hmember, hprocedure] at hlocal
    rw [hprocedure]
    calc (publish scopes module (some procedure) declared id).find? scope name
        = (scopes.declare (.procedure module.name procedure) declared.name id).find? scope name := by
          rw [publish_of_local scopes id procedure (Bool.eq_false_iff.2 hmember)]
      _ = (scopes.find? scope name).or
            (if lowerAsciiString declared.name = lowerAsciiString name ∧
                scope = .procedure module.name procedure then some id
            else none) := scopes.find?_declare _ scope declared.name name id
      _ = _ := by simp only [isKnownIn_of_local hlocal, hplace, hname]

namespace Faithful

variable {state : Declaring}

/-- One declaration more, which becomes known where it is to be known. -/
theorem push (h : state.Faithful modules) {declaration : Declaration}
    (hnew : IsNew state.declarations.size declaration) {scopes : Scopes}
    (hscopes : ∀ scope name, scopes.find? scope name =
      (state.scopes.find? scope name).or
        (if lowerAsciiString declaration.name == lowerAsciiString name &&
            isKnownIn modules declaration scope then some state.declarations.size
        else none))
    (members : Std.HashMap Nat Nat) :
    Faithful modules ⟨state.declarations.push declaration, scopes, members⟩ := by
  constructor
  · intro scope name
    rw [hscopes, h.find?_eq, firstIn?, firstIn?, Array.findIdx?_push]
  · intro id other hother
    rw [Array.getElem?_push] at hother
    split at hother
    · next hlast =>
      cases hother
      rw [hlast]
      exact hnew
    · exact h.isNew hother

/-- The scopes know the first declaration of each name, when a module is begun too. -/
theorem beginModule (h : state.Faithful modules) (module : ScopedModule) :
    (state.beginModule module).Faithful modules := by
  refine h.push ⟨rfl, rfl, fun _ ↦ rfl⟩ ?_ ∅
  intro scope name
  have hkind : (moduleDeclaration module state.declarations.size).kind = .module := rfl
  rw [Scopes.find?_declare]
  simp only [Bool.and_eq_true, beq_iff_eq, isKnownIn_of_module hkind]
  rfl

/-- The scopes know the first declaration of each name, when a node is declared too. -/
theorem declareNode (h : state.Faithful modules)
    (hhome : ∀ declaration : Declaration, declaration.module = module.name →
      homeOf? modules declaration = some module)
    (moduleId node : Nat) :
    (declareNode module moduleId state node).Faithful modules := by
  unfold Declaring.declareNode
  cases hdeclared : module.tree.declared? node with
  | none => exact h
  | some declared =>
    have hkind := kind_ne_module_of_declared? hdeclared
    refine h.push ⟨rfl, rfl, fun hmodule ↦ absurd hmodule hkind⟩ ?_ _
    intro scope name
    apply find?_publish state.scopes
    · rfl
    · rfl
    · rfl
    · rfl
    · exact hkind
    · exact hhome _ rfl

theorem empty (modules : List ScopedModule) : Faithful modules ⟨#[], .empty, ∅⟩ := by
  constructor
  · intro scope name
    rw [Scopes.find?_empty, firstIn?, Array.findIdx?_empty]
  · intro id declaration h
    cases h

/-- Resolving a name in the tables gives the visible declaration. -/
theorem resolve?_eq (h : state.Faithful modules) (name : ModuleName) (procedure : Option Nat)
    (text : String) :
    state.scopes.resolve? name procedure text =
      visible? modules state.declarations name procedure text := by
  simp only [Scopes.resolve?, h.find?_eq, visible?]

end Faithful

def ofModules (modules : List ScopedModule) : Declaring :=
  modules.foldl declareModule ⟨#[], .empty, ∅⟩

/-- What holds before anything is declared holds in the end, if it gives what is needed within a module,
that is kept from node to node, and it holds again behind the module. -/
theorem ofModules_induct {P : Declaring → Prop} {Q : ScopedModule → Nat → Declaring → Prop}
    (hempty : P ⟨#[], .empty, ∅⟩)
    (hbegin : ∀ module ∈ modules, ∀ state, P state →
      Q module state.declarations.size (state.beginModule module))
    (hnode : ∀ module ∈ modules, ∀ moduleId state node, Q module moduleId state →
      Q module moduleId (declareNode module moduleId state node))
    (hend : ∀ module ∈ modules, ∀ moduleId state, Q module moduleId state → P state) :
    P (ofModules modules) := by
  have hnodes (module : ScopedModule) (hmodule : module ∈ modules) (moduleId : Nat)
      (nodes : List Nat) {state : Declaring} (hstate : Q module moduleId state) :
      Q module moduleId (nodes.foldl (Declaring.declareNode module moduleId) state) := by
    induction nodes generalizing state with
    | nil => exact hstate
    | cons node rest ih => exact ih (hnode module hmodule moduleId state node hstate)
  have hrest (rest : List ScopedModule) (hmem : ∀ module ∈ rest, module ∈ modules)
      {state : Declaring} (hstate : P state) : P (rest.foldl declareModule state) := by
    induction rest generalizing state with
    | nil => exact hstate
    | cons module rest ih =>
      have hmodule : module ∈ modules := hmem module List.mem_cons_self
      have hbegun := hbegin module hmodule state hstate
      refine ih (fun other hother ↦ hmem other (List.mem_cons_of_mem module hother)) ?_
      exact hend module hmodule _ _ (hnodes module hmodule _ module.tree.preorder hbegun)
  exact hrest modules (fun _ hmem ↦ hmem) hempty

/-- The scopes know the first declaration of each name in the modules. -/
theorem faithful_ofModules (hnames : (modules.map (·.name)).Nodup) :
    (ofModules modules).Faithful modules := by
  apply ofModules_induct (P := Faithful modules) (Q := fun _ _ ↦ Faithful modules)
  · exact .empty modules
  · exact fun module _ state hstate ↦ hstate.beginModule module
  · intro module hmodule moduleId state node hstate
    exact hstate.declareNode (fun declaration ↦ homeOf?_eq_some hnames hmodule) moduleId node
  · exact fun _ _ _ _ hstate ↦ hstate

end Declaring

end VbaLint
