import VbaLint.ConfigFile
import VbaLint.Editor.Uri
import VbaLint.Project.Discovery

/-!
# Hosts

What the program takes from elsewhere: how directories are walked through, how a configuration is written,
and how files are addressed. Addresses are given in the form in which equal ones are equal texts.
-/

namespace VbaLint

open Files

/-- The formats and the services that the program relies on. -/
structure Host where
  walk : Walk
  /-- The configuration in a text; none if the text does not hold one. -/
  parseConfig? : String → Option Config
  /-- The path of the file that an address names; none if it names no file. -/
  pathOf? : String → Option String
  /-- The address of the file at a path, if there is one. -/
  addressOf? : String → Option String
  /-- What is said of the cause for which a configuration file gave no configuration. -/
  configCause : ConfigFileError → String
  /-- What is said of the cause for which the components below a root could not be read. -/
  loadCause : String → String

namespace Host

/-- The components below a root; none if one of them cannot be read. -/
def loadComponents? (host : Host) (files : FileView) (root : String) : Option (List LoadedComponent) :=
  (gatherFilesBy host.walk files root []).bind (readComponents? files)

def plain : Host where
  walk := Entry.walk
  parseConfig? := Config.parse?
  pathOf? := Editor.pathOf?
  addressOf? path := some (Editor.addressOf path)
  configCause _ := ""
  loadCause root := root

end Host

end VbaLint
