import VbaLint.Module.Reading
import VbaLint.Project.Scope

/-!
# Snapshots

A snapshot is one version of a project: its modules in order of their names, and their declarations.
Everything that a pass reports is computed from one snapshot and carries its version. Versions have no bound
here; 64 bits last for more of them than are ever drawn.
-/

namespace VbaLint

open Tree

/-- One module of a snapshot. -/
structure ModuleSource where
  name : ModuleName
  type : ComponentType
  /-- The digest of the text. -/
  contentHash : String
  parsed : ParsedModule

/-- Put a module into a list ordered by name, in place of one of the same name. -/
def insertModule (module : ModuleSource) : List ModuleSource → List ModuleSource
  | [] => [module]
  | first :: rest =>
    match module.name.order first.name with
    | .lt => module :: first :: rest
    | .eq => module :: rest
    | .gt => first :: insertModule module rest

section

variable {f : ModuleSource → ModuleSource} (hname : ∀ module, (f module).name = module.name)
include hname

/-- The place of a module in a list depends on names alone. -/
theorem insertModule_map (module : ModuleSource) (placed : List ModuleSource) :
    insertModule (f module) (placed.map f) = (insertModule module placed).map f := by
  induction placed with
  | nil => rfl
  | cons first rest ih =>
    rw [List.map_cons, insertModule, insertModule, hname, hname]
    cases module.name.order first.name with
    | lt | eq => rfl
    | gt => exact congrArg (f first :: ·) ih

/-- Putting modules in place by their names commutes with a change that keeps the names. -/
theorem foldl_insertModule_map (modules placed : List ModuleSource) :
    (modules.map f).foldl (fun placed module ↦ insertModule module placed) (placed.map f) =
      (modules.foldl (fun placed module ↦ insertModule module placed) placed).map f := by
  induction modules generalizing placed with
  | nil => rfl
  | cons module rest ih =>
    rw [List.map_cons, List.foldl_cons, insertModule_map hname, ih, List.foldl_cons]

end

/-- One version of a project. -/
structure Snapshot where
  version : Nat
  project : String
  modules : List ModuleSource
  declarations : Array Declaration

namespace Snapshot

/-- The snapshot of some modules; of two with one name the later counts. -/
def ofModules (version : Nat) (project : String) (modules : List ModuleSource) : Snapshot :=
  let ordered := modules.foldl (fun placed module ↦ insertModule module placed) []
  { version, project
    modules := ordered
    declarations :=
      bindNames (ordered.map fun module ↦ ⟨module.name, module.type, module.parsed.tree⟩) }

def module? (snapshot : Snapshot) (name : ModuleName) : Option ModuleSource :=
  snapshot.modules.find? fun module ↦ module.name == name

def tree? (snapshot : Snapshot) (name : ModuleName) : Option SyntaxTree :=
  (snapshot.module? name).map (·.parsed.tree)

/-- The annotations of a module; none for an unknown one. -/
def annotationsOf (snapshot : Snapshot) (name : ModuleName) : List Annotation :=
  ((snapshot.module? name).map (·.parsed.annotations)).getD []

def componentType? (snapshot : Snapshot) (name : ModuleName) : Option ComponentType :=
  (snapshot.module? name).map (·.type)

def node? (snapshot : Snapshot) (name : ModuleName) (node : Nat) : Option Node :=
  (snapshot.tree? name).bind (·.node? node)

def containsNode (snapshot : Snapshot) (name : ModuleName) (node : Nat) : Bool :=
  (snapshot.node? name node).isSome

def declaration? (snapshot : Snapshot) (id : Nat) : Option Declaration :=
  snapshot.declarations[id]?

end Snapshot

end VbaLint
