import VbaLint.Inspection.Report
import VbaLint.Json.Value

/-!
# Result sets as JSON

A record may also be read from the list of its values in the order of its keys, and a name of a fixed
choice from a record that holds it as its only key with the value null. Unknown keys are passed over;
none may be missing.
-/

namespace VbaLint

open Source

namespace Json

def version? (value : Json) : Option Nat := value.naturalBelow? (Nat.pow 2 64)

/-- Lines, columns and numbers of nodes and declarations count up to 32 bits. -/
def index? (value : Json) : Option Nat := value.naturalBelow? (Nat.pow 2 32)

def fields? (names : List String) : Json → Option (List Json)
  | .record fields => names.mapM fun name ↦ fields.lookup name
  | .list items => if items.length = names.length then some items else none
  | _ => none

def choice? : Json → Option String
  | .text name => some name
  | .record [(name, .null)] => some name
  | _ => none

end Json

namespace Source.Selection

def toJson (selection : Selection) : Json :=
  .record
    [("start_line", .natural selection.startLine), ("start_column", .natural selection.startColumn),
      ("end_line", .natural selection.endLine), ("end_column", .natural selection.endColumn)]

def ofJson? (value : Json) : Option Selection := do
  match ← value.fields? ["start_line", "start_column", "end_line", "end_column"] with
  | [startLine, startColumn, endLine, endColumn] =>
    return ⟨← startLine.index?, ← startColumn.index?, ← endLine.index?, ← endColumn.index?⟩
  | _ => none

end Source.Selection

namespace ModuleName

def toJson (name : ModuleName) : Json :=
  .record [("project", .text name.project), ("component", .text name.component)]

def ofJson? (value : Json) : Option ModuleName := do
  match ← value.fields? ["project", "component"] with
  | [project, component] => return ⟨← project.text?, ← component.text?⟩
  | _ => none

end ModuleName

namespace Target

/-- The target as a record that tells its form under the key `kind`. -/
def toJson : Target → Json
  | context module node selection =>
    .record
      [("kind", .text "context"), ("module", module.toJson), ("node", .natural node),
        ("selection", selection.toJson)]
  | reference module node selection identifier declaration =>
    .record
      [("kind", .text "reference"), ("module", module.toJson), ("node", .natural node),
        ("selection", selection.toJson), ("identifier", .text identifier),
        ("declaration", .natural declaration)]

def splitForm? : Json → Option (String × Json)
  | .list (form :: items) => form.text?.map (·, .list items)
  | value => ((value.field? "kind").bind (·.text?)).map (·, value)

def ofJson? (value : Json) : Option Target := do
  let (form, value) ← splitForm? value
  if form = "context" then
    match ← value.fields? ["module", "node", "selection"] with
    | [module, node, selection] =>
      return .context (← ModuleName.ofJson? module) (← node.index?) (← Selection.ofJson? selection)
    | _ => none
  else if form = "reference" then
    match ← value.fields? ["module", "node", "selection", "identifier", "declaration"] with
    | [module, node, selection, identifier, declaration] =>
      return .reference (← ModuleName.ofJson? module) (← node.index?)
        (← Selection.ofJson? selection) (← identifier.text?) (← declaration.index?)
    | _ => none
  else none

end Target

namespace Finding

def toJson (finding : Finding) : Json :=
  .record
    [("inspection", .text finding.inspection), ("inspection_type", .text finding.category.label),
      ("severity", .text finding.severity.label), ("message", .text finding.message),
      ("target", finding.target.toJson), ("snapshot_version", .natural finding.snapshotVersion)]

def ofJson? (value : Json) : Option Finding := do
  match ← value.fields?
      ["inspection", "inspection_type", "severity", "message", "target", "snapshot_version"] with
  | [inspection, category, severity, message, target, version] =>
    return {
      inspection := ← inspection.text?
      category := ← category.choice?.bind Category.ofLabel?
      severity := ← severity.choice?.bind Severity.ofLabel?
      message := ← message.text?
      target := ← Target.ofJson? target
      snapshotVersion := ← version.version? }
  | _ => none

end Finding

namespace Fault

def toJson (fault : Fault) : Json :=
  .record [("inspection", .text fault.inspection), ("message", .text fault.message)]

def ofJson? (value : Json) : Option Fault := do
  match ← value.fields? ["inspection", "message"] with
  | [inspection, message] => return ⟨← inspection.text?, ← message.text?⟩
  | _ => none

end Fault

namespace ResultSet

def jsonFields (set : ResultSet) : List (String × Json) :=
  [("snapshot_version", .natural set.snapshotVersion),
    ("results", .list (set.findings.map (·.toJson))),
    ("faults", .list (set.faults.map (·.toJson)))]

def toJson (set : ResultSet) : Json := .record set.jsonFields

/-- The printed report: the result set with its line of counts. -/
def jsonReport (set : ResultSet) : String :=
  (Json.record (set.jsonFields ++ [("summary", .text set.summary)])).pretty ++ "\n"

def ofJson? (value : Json) : Option ResultSet := do
  match ← value.fields? ["snapshot_version", "results", "faults"] with
  | [version, results, faults] =>
    return {
      snapshotVersion := ← version.version?
      findings := ← (← results.items?).mapM Finding.ofJson?
      faults := ← (← faults.items?).mapM Fault.ofJson? }
  | _ => none

end ResultSet

end VbaLint
