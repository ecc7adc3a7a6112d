import VbaLint.Files.Entry
import VbaLint.Project.Assembly
import VbaLint.Text.Utf8

/-!
# Discovery of exported components

A project is loaded from the exported files below a directory, or from a single file. Directories of
certain names are left out, the starting directory not excepted. The extension of a file tells the
type of its component; its name stands in the text, or else is the stem of the file's name.
-/

namespace VbaLint

open Files Text

def excludedDirectories : List String := ["target", ".git", "node_modules", ".svn"]

def ComponentType.ofPath? (path : String) : Option ComponentType :=
  (extension? path).bind ofExtension?

/-- The rest of a text behind a word, in any ASCII case. -/
def afterWord? (word : String) (text : List Char) : Option (List Char) :=
  if sameIgnoringCase (text.take word.length) word.toList then some (text.drop word.length) else none

/-- The name that an attribute at the front of the text gives to the component. -/
def nameAttribute? (text : List Char) : Option String := do
  let rest ← afterWord? "attribute" (trimStart text)
  guard (rest.head?.any isBlank)
  let rest ← afterWord? "vb_name" (trimStart rest)
  let rest ← afterWord? "=" (trimStart rest)
  let rest ← afterWord? "\"" (trimStart rest)
  let name := rest.takeWhile (· != '"')
  guard (!name.isEmpty && name.length < rest.length)
  return String.ofList (trim name)

/-- The text from the start of each of its lines on. -/
def lineStarts (text : List Char) : List (List Char) :=
  text :: behindLineEnds text
where
  /-- What stands behind each line end. -/
  behindLineEnds : List Char → List (List Char)
    | [] => []
    | c :: rest => if c = '\n' then rest :: behindLineEnds rest else behindLineEnds rest

def componentName (path text : String) : String :=
  ((lineStarts text.toList).findSome? nameAttribute?).getD (stem path)

/-- A search below a root comes to the entry at the end of a trail: it is no directory of an excluded
name. The root itself goes by the name at the end of its path, or by the whole path if there is none. -/
def isSearched (excludes : List String) (root : String) (trail : List String) (entry : Entry) : Bool :=
  !entry.isDirectory ||
    !(excludedDirectories ++ excludes).contains (trail.getLast?.getD ((fileName? root).getD root))

/-- The files with components that a walk finds below a root, in order of their paths; none if there is no
root. -/
def gatherFilesBy (walk : Walk) (files : FileView) (root : String) (excludes : List String) :
    Option (List String) := do
  let entry ← files root
  let visited := walk (isSearched excludes root) entry
  let found := (visited.filter (·.2.isFile)).map fun (trail, _) ↦ trail.foldl join root
  return (found.filter fun path ↦ (ComponentType.ofPath? path).isSome).mergeSort fun left right ↦
    Files.order left right != .gt

/-- The files with components below a root, in order of their paths; none if there is no root. -/
def gatherFiles (files : FileView) (root : String) (excludes : List String) :
    Option (List String) :=
  gatherFilesBy Entry.walk files root excludes

structure LoadedComponent where
  path : String
  name : String
  type : ComponentType
  text : String
  deriving DecidableEq, Repr

/-- Read the component in a file; none if it cannot be read. -/
def readComponent? (files : FileView) (path : String) (type : ComponentType) :
    Option LoadedComponent :=
  (files.read? path).map fun bytes ↦
    let text := readUtf8 bytes
    ⟨path, componentName path text, type, text⟩

/-- Read the components in those of the files that hold one; none if one cannot be read. -/
def readComponents? (files : FileView) (paths : List String) : Option (List LoadedComponent) :=
  (paths.filterMap fun path ↦ (ComponentType.ofPath? path).map (path, ·)).mapM
    fun (path, type) ↦ readComponent? files path type

def assemble (project : String) (components : List LoadedComponent) : Assembly :=
  .ofModules project <| components.map fun component ↦
    ⟨component.name, component.type, component.text⟩

/-- Load the project that a walk finds below a root, or the one in a single file, with a cache. -/
def loadProjectCachedBy (walk : Walk) (files : FileView) (root project : String) (version : Nat)
    (cache : ParseCache) : Option (Snapshot × ParseCache) := do
  let paths ← if files.isFile root then some [root] else gatherFilesBy walk files root []
  let components ← readComponents? files paths
  return (assemble project components).buildCached version cache

/-- Load the project that a walk finds below a root, or the one in a single file. -/
def loadProjectBy (walk : Walk) (files : FileView) (root project : String) (version : Nat) :
    Option Snapshot :=
  (loadProjectCachedBy walk files root project version .empty).map (·.1)

/-- Load the project below a root, or in a single file, with a cache. -/
def loadProjectCached? (files : FileView) (root project : String) (version : Nat)
    (cache : ParseCache) : Option (Snapshot × ParseCache) :=
  loadProjectCachedBy Entry.walk files root project version cache

def loadProject? (files : FileView) (root project : String) (version : Nat) : Option Snapshot :=
  loadProjectBy Entry.walk files root project version

end VbaLint
