import VbaLint.Editor.Document
import VbaLint.Json.Results

/-!
# Diagnostics

A finding as the editor shows it. Lines and characters count from zero there, and the end of a range is
exclusive. The findings of a component are shown in the open document of that name.
-/

namespace VbaLint.Editor

open Source Text

structure Position where
  line : Nat
  character : Nat
  deriving DecidableEq, Repr

/-- A range of a document, without its end. -/
structure Range where
  start : Position
  stop : Position
  deriving DecidableEq, Repr

def Range.ofSelection (selection : Selection) : Range where
  start := ⟨selection.startLine - 1, selection.startColumn - 1⟩
  stop := ⟨selection.endLine - 1, selection.endColumn⟩

def severityNumber : Severity → Nat
  | .error => 1
  | .warning => 2
  | .suggestion => 3
  | .hint => 4

structure Diagnostic where
  range : Range
  severity : Nat
  /-- The name of the rule. -/
  code : String
  message : String
  /-- The text is shown faded, as it has no effect. -/
  isUnnecessary : Bool
  category : Category
  snapshotVersion : Nat
  deriving DecidableEq, Repr

namespace Diagnostic

def ofFinding (finding : Finding) : Diagnostic where
  range := .ofSelection finding.selection
  severity := severityNumber finding.severity
  code := finding.inspection
  message := finding.message
  isUnnecessary := finding.inspection == "VariableNotUsed"
  category := finding.category
  snapshotVersion := finding.snapshotVersion

def positionJson (position : Position) : Json :=
  .record [("line", .natural position.line), ("character", .natural position.character)]

def toJson (diagnostic : Diagnostic) : Json :=
  .record <|
    [("range", .record
        [("start", positionJson diagnostic.range.start),
          ("end", positionJson diagnostic.range.stop)]),
      ("severity", .natural diagnostic.severity), ("code", .text diagnostic.code),
      ("source", .text "vbinspect"), ("message", .text diagnostic.message),
      ("data", .record
        [("inspection_type", .text diagnostic.category.title),
          ("snapshot_version", .natural diagnostic.snapshotVersion)])] ++
      if diagnostic.isUnnecessary then [("tags", .list [.natural 1])] else []

end Diagnostic

/-- The address of the document that shows the findings of a component: the first of its name, in any
ASCII case. -/
def shownIn? (documents : Documents) (component : String) : Option String :=
  (List.find? (fun located : Located ↦ sameName located.2.name component) documents).map (·.1)

/-- The diagnostics of the document at an address, where `documents` are the open ones. -/
def diagnosticsOf (documents : Documents) (set : ResultSet) (address : String) : List Diagnostic :=
  (set.findings.filter fun finding ↦
    shownIn? documents finding.module.component == some address).map .ofFinding

end VbaLint.Editor
