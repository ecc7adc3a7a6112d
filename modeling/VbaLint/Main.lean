import VbaLint.Command.Run

/-!
# The program

Reads the files that a run may ask for, runs the command on them, prints what it leaves behind and ends
with its exit code.
-/

namespace VbaLint.Program

open Command Files

/-- The content of a file matters: it holds a component or a configuration. -/
def isWanted (name : String) : Bool := (ComponentType.ofPath? name).isSome || name == configFileName

/-- The content of a file, or of the one that a link leads to. -/
def readFile? (place : IO.FS.DirEntry) : IO (Option ByteArray) := do
  if ← place.path.isDir then return none
  return some (← IO.FS.readBinFile place.path)

/-- Read a file, or a directory with what is below it. Links to directories are not followed, and
directories that are never searched are left empty. -/
partial def readEntry (place : IO.FS.DirEntry) : IO Entry := do
  match (← place.path.metadata).type with
  | .dir => do
    let mut entries := []
    for child in ← place.path.readDir do
      let name := child.fileName
      match (← child.path.symlinkMetadata).type with
      | .dir =>
        let entry ← if excludedDirectories.contains name then pure .empty else readEntry child
        entries := (name, entry) :: entries
      | type =>
        if ← child.path.pathExists then
          let content ← if isWanted name then readFile? child else pure (some .empty)
          let entry := if type == .symlink then .link content else content.elim .empty .file
          entries := (name, entry) :: entries
    return .directory entries
  | _ => return .file (← IO.FS.readBinFile place.path)

def readPlace (place : String) : IO (Option (String × Entry)) := do
  let entry : IO.FS.DirEntry := ⟨".", place⟩
  if place.isEmpty || !(← entry.path.pathExists) then return none
  return some (place, ← readEntry entry)

def readPlaces (arguments : List String) : IO FileView := do
  match Options.read arguments with
  | .error _ => return .ofPlaces []
  | .ok options => return .ofPlaces (← options.places.filterMapM readPlace)

end VbaLint.Program

def main (arguments : List String) : IO UInt32 := do
  let outcome := VbaLint.Command.run (← VbaLint.Program.readPlaces arguments) arguments
  IO.print outcome.output
  outcome.messages.forM IO.eprintln
  return outcome.exitCode.toUInt32
