import VbaLint.Inspection.ResultSet

/-!
# Plain reports

One line for each finding and each fault, and a last line of counts.
-/

namespace VbaLint.ResultSet

def summary (set : ResultSet) : String :=
  let total := set.findings.length
  let results := toString total ++ " result" ++ if total = 1 then "" else "s"
  let parts := set.countBySeverity.map fun (severity, count) ↦
    toString count ++ " " ++ severity.label
  let counts := if parts.isEmpty then "" else " (" ++ ", ".intercalate parts ++ ")"
  let failed :=
    if set.faults.isEmpty then ""
    else "; " ++ toString set.faults.length ++ " inspection(s) failed"
  results ++ counts ++ failed

def reportLines (set : ResultSet) : List String :=
  (if set.findings.isEmpty then ["No inspection results."] else set.findings.map (·.line)) ++
    set.faults.map (fun fault ↦ "[FAULT] " ++ fault.inspection ++ ": " ++ fault.message) ++
    [set.summary]

def report (set : ResultSet) : String := String.join (set.reportLines.map (· ++ "\n"))

end VbaLint.ResultSet
