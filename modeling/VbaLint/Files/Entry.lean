import VbaLint.Files.Path

/-!
# Directory trees

An entry is a file, a directory of named entries, or a link to one of them, which a walk does not follow.
Names are Unicode text: an entry of another name is not known here, and neither is a link that leads
nowhere. A path is followed from a directory segment by segment; only a directory has anything below it, and
nothing above the starting directory is known.
-/

namespace VbaLint.Files

inductive Entry where
  | file (content : ByteArray)
  | directory (entries : List (String × Entry))
  /-- A link, with the content of the file that it leads to, or none if that is a directory. -/
  | link (content : Option ByteArray)

namespace Entry

def empty : Entry := .directory []

instance : Inhabited Entry := ⟨empty⟩

def isDirectory : Entry → Bool
  | directory _ => true
  | file _ | link _ => false

/-- The entries of a directory; other entries have none. -/
def entries : Entry → List (String × Entry)
  | directory entries => entries
  | file _ | link _ => []

/-- The content of a file, or of the one that a link leads to. -/
def content? : Entry → Option ByteArray
  | file content => some content
  | directory _ => none
  | link content => content

/-- The entry is a file, or a link to one. -/
def isFile (entry : Entry) : Bool := entry.content?.isSome

/-- Follow segments from an entry, with the directories above it, the nearest first. -/
def follow : List Entry → Entry → List String → Option Entry
  | _, here, [] => some here
  | _, .file _, _ :: _ | _, .link _, _ :: _ => none
  | above, .directory entries, segment :: rest =>
    if segment = "" || segment = "." then follow above (.directory entries) rest
    else if segment = ".." then
      match above with
      | [] => none
      | parent :: above => follow above parent rest
    else (entries.lookup segment).bind fun child ↦ follow (.directory entries :: above) child rest
termination_by _ _ segments => segments.length

def find? (here : Entry) (path : String) : Option Entry :=
  match segments path with
  | [] | [""] => none
  | "" :: _ => none
  | segments => follow [] here segments

def put (name : String) (entry : Entry) : List (String × Entry) → List (String × Entry)
  | [] => [(name, entry)]
  | first :: rest => if first.1 = name then (name, entry) :: rest else first :: put name entry rest

/-- The tree with `entry` at the end of some names; what is missing on the way is made. -/
def write (here : Entry) (names : List String) (entry : Entry) : Entry :=
  match names with
  | [] => entry
  | name :: rest =>
    let below := (here.entries.lookup name).getD empty
    .directory (put name (below.write rest entry) here.entries)
termination_by names.length

def delete (here : Entry) (names : List String) : Entry :=
  match names with
  | [] => here
  | [name] => .directory (here.entries.filter (·.1 != name))
  | name :: rest =>
    match here.entries.lookup name with
    | none => here
    | some below => .directory (put name (below.delete rest) here.entries)
termination_by names.length

mutual

/-- The entries at and below an entry, each with the names that lead to it, a directory before what is in
it. What `keep` refuses is left out with everything below it. The names in `trail` lead to the entry. -/
def walkFrom (keep : List String → Entry → Bool) (trail : List String) :
    Entry → List (List String × Entry)
  | .file content => if keep trail (.file content) then [(trail, .file content)] else []
  | .link content => if keep trail (.link content) then [(trail, .link content)] else []
  | .directory entries =>
    if keep trail (.directory entries) then (trail, .directory entries) :: walkIn keep trail entries
    else []

def walkIn (keep : List String → Entry → Bool) (trail : List String) :
    List (String × Entry) → List (List String × Entry)
  | [] => []
  | (name, entry) :: rest => walkFrom keep (trail ++ [name]) entry ++ walkIn keep trail rest

end

/-- The entries at and below an entry, as far as `keep` lets a walk come. -/
def walk (keep : List String → Entry → Bool) (entry : Entry) : List (List String × Entry) :=
  walkFrom keep [] entry

end Entry

/-- A way to visit the entries at and below an entry, each with the names that lead to it, as far as a
test of entries and their names allows. -/
abbrev Walk := (List String → Entry → Bool) → Entry → List (List String × Entry)

/-- What is known of files: the entry at a path. -/
abbrev FileView := String → Option Entry

namespace FileView

/-- The rest of a path behind another one. -/
def below? (root path : String) : Option String :=
  let start := (join root "").toList
  if start.isPrefixOf path.toList then some (String.ofList (path.toList.drop start.length)) else none

/-- Files known by some places and the entries there. -/
def ofPlaces (places : List (String × Entry)) : FileView := fun path ↦
  places.findSome? fun (root, entry) ↦
    if path = root then some entry else (below? root path).bind entry.find?

def isFile (files : FileView) (path : String) : Bool := (files path).any (·.isFile)

def read? (files : FileView) (path : String) : Option ByteArray := (files path).bind (·.content?)

def readText? (files : FileView) (path : String) : Option String :=
  (files.read? path).bind String.fromUTF8?

end FileView

end VbaLint.Files
