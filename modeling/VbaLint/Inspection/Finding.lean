import VbaLint.Inspection.Severity
import VbaLint.Module.Name
import VbaLint.Source.Selection

/-!
# Findings

A finding is one place that a rule complains about. It points at a node of the tree or at a reference
to a declaration, in the snapshot whose version it carries.
-/

namespace VbaLint

open Source

/-- What a finding points at. -/
inductive Target where
  /-- A node. -/
  | context (module : ModuleName) (node : Nat) (selection : Selection)
  /-- A reference to a declaration. -/
  | reference (module : ModuleName) (node : Nat) (selection : Selection) (identifier : String)
      (declaration : Nat)
  deriving DecidableEq, Repr

namespace Target

def module : Target → ModuleName
  | context module .. | reference module .. => module

def node : Target → Nat
  | context _ node _ | reference _ node .. => node

def selection : Target → Selection
  | context _ _ selection | reference _ _ selection .. => selection

/-- Nodes come before references; within each by module, node and place, references then by name and
declaration. -/
def order : Target → Target → Ordering
  | context module node selection, context module' node' selection' =>
    (module.order module').then <| (compare node node').then (selection.order selection')
  | context .., reference .. => .lt
  | reference .., context .. => .gt
  | reference module node selection identifier declaration,
      reference module' node' selection' identifier' declaration' =>
    (module.order module').then <| (compare node node').then <|
      (selection.order selection').then <|
        (compare identifier identifier').then (compare declaration declaration')

end Target

/-- One place that a rule complains about. -/
structure Finding where
  /-- The name of the rule. -/
  inspection : String
  category : Category
  severity : Severity
  message : String
  target : Target
  /-- The version of the snapshot that the finding was computed from. -/
  snapshotVersion : Nat
  deriving DecidableEq, Repr

namespace Finding

def module (finding : Finding) : ModuleName := finding.target.module

def selection (finding : Finding) : Selection := finding.target.selection

/-- By rule, category, severity, message, target and version. -/
def order (left right : Finding) : Ordering :=
  (compare left.inspection right.inspection).then <|
    (left.category.order right.category).then <|
      (left.severity.order right.severity).then <|
        (compare left.message right.message).then <|
          (left.target.order right.target).then
            (compare left.snapshotVersion right.snapshotVersion)

def line (finding : Finding) : String :=
  finding.module.label ++ " " ++ finding.selection.label ++ " [" ++ finding.severity.label ++ "] " ++
    finding.inspection ++ ": " ++ finding.message

end Finding

end VbaLint
