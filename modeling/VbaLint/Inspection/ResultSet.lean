import VbaLint.Inspection.Finding

/-!
# Result sets

What one complete pass has found: the findings in order, and a fault for every rule that failed and so
contributed none.
-/

namespace VbaLint

structure Fault where
  inspection : String
  message : String
  deriving DecidableEq, Repr

/-- The outcome of one complete pass. -/
structure ResultSet where
  snapshotVersion : Nat
  findings : List Finding
  faults : List Fault
  deriving DecidableEq, Repr

namespace ResultSet

def empty (version : Nat) : ResultSet := ⟨version, [], []⟩

def forModule (set : ResultSet) (module : ModuleName) : List Finding :=
  set.findings.filter (·.module == module)

def byInspection (set : ResultSet) (name : String) : List Finding :=
  set.findings.filter (·.inspection == name)

/-- The result set without the findings that are less serious than `minimum`. -/
def retainAtLeast (set : ResultSet) (minimum : Severity) : ResultSet :=
  { set with findings := set.findings.filter (·.severity.atLeast minimum) }

def countOf (set : ResultSet) (severity : Severity) : Nat :=
  set.findings.countP (·.severity == severity)

/-- The severities that occur with their numbers of findings, the most serious first. -/
def countBySeverity (set : ResultSet) : List (Severity × Nat) :=
  Severity.all.reverse.filterMap fun severity ↦
    if set.countOf severity = 0 then none else some (severity, set.countOf severity)

/-- The findings sorted, each with its place in the result set; equal ones keep their order. -/
def ranked (set : ResultSet) : List (Finding × Nat) :=
  set.findings.zipIdx.mergeSort fun left right ↦ left.1.order right.1 != .gt

end ResultSet

end VbaLint
