import VbaLint.Project.ParseCache
import VbaLint.Project.Snapshot

/-!
# Assembly of projects

The modules of a project are collected as texts, the later of two with one name in place of the
earlier, and then read into a snapshot.
-/

namespace VbaLint

structure ModuleText where
  component : String
  type : ComponentType
  text : String
  deriving DecidableEq, Repr

/-- The modules of a project in the order of their last mention. -/
structure Assembly where
  project : String
  modules : List ModuleText
  deriving DecidableEq, Repr

namespace Assembly

def new (project : String) : Assembly := ⟨project, []⟩

/-- Put a module at the end, in place of one of the same name. -/
def add (assembly : Assembly) (module : ModuleText) : Assembly :=
  { assembly with
    modules := assembly.modules.filter (·.component != module.component) ++ [module] }

def ofModules (project : String) (modules : List ModuleText) : Assembly :=
  modules.foldl add (new project)

def size (assembly : Assembly) : Nat := assembly.modules.length

def buildCached (assembly : Assembly) (version : Nat) (cache : ParseCache) :
    Snapshot × ParseCache :=
  let (readings, cache) :=
    cache.readAll (assembly.modules.map fun module ↦ ⟨module.component, module.text⟩)
  let sources := (assembly.modules.zip readings).map fun (module, reading) ↦
    { name := ⟨assembly.project, module.component⟩
      type := module.type
      contentHash := reading.hash
      parsed := reading.parsed : ModuleSource }
  (.ofModules version assembly.project sources, cache)

def build (assembly : Assembly) (version : Nat) : Snapshot :=
  (assembly.buildCached version .empty).1

end Assembly

end VbaLint
