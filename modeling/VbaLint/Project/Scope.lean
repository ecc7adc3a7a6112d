import Std.Data.HashMap
import VbaLint.Project.Declared

/-!
# Scopes and the binding of names

Names are declared in three kinds of scope: in a procedure, in a module, and in the project, which
knows the modules and the public members of standard modules. Within a scope the first declaration of
a name wins. An identifier is bound in the innermost of its procedure, its module and the project
that knows its name; one that no scope knows refers to nothing.
-/

namespace VbaLint

open Source Text Tree

/-- A scope in which names are declared. -/
inductive Scope where
  | project
  | module (name : ModuleName)
  | procedure (module : ModuleName) (node : Nat)
  deriving DecidableEq, Repr, Hashable

/-- The declarations known in each scope by lowered name. -/
structure Scopes where
  table : Std.HashMap (Scope × String) Nat

namespace Scopes

def empty : Scopes := ⟨∅⟩

def declare (scopes : Scopes) (scope : Scope) (name : String) (declaration : Nat) : Scopes :=
  ⟨scopes.table.insertIfNew (scope, lowerAsciiString name) declaration⟩

def find? (scopes : Scopes) (scope : Scope) (name : String) : Option Nat :=
  scopes.table[(scope, lowerAsciiString name)]?

/-- The declaration that a name refers to in a procedure of a module, or outside all procedures. -/
def resolve? (scopes : Scopes) (module : ModuleName) (procedure : Option Nat) (name : String) :
    Option Nat :=
  (procedure.bind fun node ↦ scopes.find? (.procedure module node) name).or <|
    (scopes.find? (.module module) name).or (scopes.find? .project name)

end Scopes

/-- A module whose names are to be bound. -/
structure ScopedModule where
  name : ModuleName
  type : ComponentType
  tree : SyntaxTree

/-- The declarations made so far. -/
structure Declaring where
  declarations : Array Declaration
  scopes : Scopes
  /-- The members of the current module by node. -/
  members : Std.HashMap Nat Nat

namespace Declaring

def moduleDeclaration (module : ScopedModule) (id : Nat) : Declaration where
  id
  name := module.name.component
  kind := .module
  module := module.name
  parentScope := none
  asType := none
  isArray := false
  isAutoInstantiated := false
  isPublic := true
  node := 0
  selection := ((module.tree.node? 0).map (·.selection)).getD .unset
  references := #[]

def beginModule (state : Declaring) (module : ScopedModule) : Declaring :=
  let id := state.declarations.size
  { declarations := state.declarations.push (moduleDeclaration module id)
    scopes := state.scopes.declare .project module.name.component id
    members := ∅ }

/-- Make the name of a new declaration known: a local name in its procedure, any other name in its
module, and if it is public in a standard module also in the project. -/
def publish (scopes : Scopes) (module : ScopedModule) (enclosing : Option Nat) (declared : Declared)
    (id : Nat) : Scopes :=
  match enclosing, declared.kind.isMember with
  | some procedure, false => scopes.declare (.procedure module.name procedure) declared.name id
  | _, _ =>
    let scopes := scopes.declare (.module module.name) declared.name id
    if module.type.exposesPublicMembers && declared.isPublic then
      scopes.declare .project declared.name id
    else scopes

/-- Declare what a node of a module declares, where `moduleId` is the declaration of the module. -/
def declareNode (module : ScopedModule) (moduleId : Nat) (state : Declaring) (node : Nat) :
    Declaring :=
  match module.tree.declared? node with
  | none => state
  | some declared =>
    let enclosing := module.tree.enclosingProcedure? node
    let id := state.declarations.size
    let declaration : Declaration :=
      { id
        name := declared.name
        kind := declared.kind
        module := module.name
        parentScope := some ((enclosing.bind fun member ↦ state.members[member]?).getD moduleId)
        asType := declared.asType
        isArray := declared.isArray
        isAutoInstantiated := declared.isAutoInstantiated
        isPublic := declared.isPublic
        node
        selection := declared.selection
        references := #[] }
    { declarations := state.declarations.push declaration
      scopes := publish state.scopes module enclosing declared id
      members := if declared.kind.isMember then state.members.insert node id else state.members }

def declareModule (state : Declaring) (module : ScopedModule) : Declaring :=
  module.tree.preorder.foldl (declareNode module state.declarations.size)
    (state.beginModule module)

end Declaring

/-- The reference that a node makes, if it is an identifier in use and some scope knows its name. -/
def referenceAt? (scopes : Scopes) (module : ScopedModule) (id : Nat) : Option Reference := do
  let node ← module.tree.node? id
  let parentKind := (module.tree.parent? id).bind module.tree.kind?
  if node.kind = .identifier && !parentKind.any (·.declaresName) then
    let declaration ←
      scopes.resolve? module.name (module.tree.enclosingProcedure? id) node.text
    some
      { module := module.name
        node := id
        selection := node.selection
        identifier := node.text
        isAssignment := parentKind == some .letStmt || parentKind == some .setStmt
        declaration }
  else none

def referencesOf (scopes : Scopes) (modules : List ScopedModule) : List Reference :=
  modules.flatMap fun module ↦ module.tree.preorder.filterMap (referenceAt? scopes module)

def addReference (declarations : Array Declaration) (reference : Reference) : Array Declaration :=
  declarations.modify reference.declaration fun declaration ↦
    { declaration with references := declaration.references.push reference }

def bindNames (modules : List ScopedModule) : Array Declaration :=
  let declared := modules.foldl Declaring.declareModule ⟨#[], .empty, ∅⟩
  (referencesOf declared.scopes modules).foldl addReference declared.declarations

end VbaLint
