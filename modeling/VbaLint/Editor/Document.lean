import VbaLint.Pass.Runner
import VbaLint.Project.Discovery

/-!
# Documents

The texts that an editor session works on, by address: those the editor has open, and the components
found on disk.
-/

namespace VbaLint.Editor

/-- A document with a component. -/
structure Document where
  /-- The name of the component. -/
  name : String
  type : ComponentType
  text : String
  isOpen : Bool
  /-- The version that the editor gave to the text. -/
  version : Option Int
  deriving DecidableEq, Repr

abbrev Located := String × Document

/-- The documents of a session, each address once. -/
abbrev Documents := List Located

namespace Documents

def find? (documents : Documents) (address : String) : Option Document := documents.lookup address

def put (documents : Documents) (address : String) (document : Document) : Documents :=
  match documents with
  | [] => [(address, document)]
  | first :: rest =>
    if first.1 = address then (address, document) :: rest
    else first :: put rest address document

/-- The documents with one put at an address that has none. -/
def putNew (documents : Documents) (address : String) (document : Document) : Documents :=
  if (documents.find? address).isSome then documents else documents.put address document

def close (documents : Documents) (address : String) : Documents :=
  documents.map fun located ↦
    if located.1 = address then (address, { located.2 with isOpen := false }) else located

def assembly (documents : Documents) (project : String) : Assembly :=
  .ofModules project <| documents.map fun located ↦
    ⟨located.2.name, located.2.type, located.2.text⟩

/-- The documents in the order in which they happen to be listed. -/
def inOrder (documents : Documents) (order : List Nat) : Documents :=
  (schedule order documents.length).filterMap (documents[·]?)

def opened (documents : Documents) : Documents := documents.filter (·.2.isOpen)

end Documents

end VbaLint.Editor
