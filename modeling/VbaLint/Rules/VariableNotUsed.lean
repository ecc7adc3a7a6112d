import VbaLint.Inspection.Basic

/-!
# Variables that are never read

A variable without a reading reference is reported, unless it is public: then code outside the project
may read it.
-/

namespace VbaLint

namespace VariableNotUsed

def info : RuleInfo where
  name := "VariableNotUsed"
  defaultSeverity := .warning
  category := .codeQualityIssues
  description := "Variable is declared but its value is never read."
  approach := .reference

/-- The declaration is a variable that is neither public nor read. -/
def isUnused (declaration : Declaration) : Bool :=
  declaration.kind == .variableItem && !declaration.isPublic && declaration.reads.isEmpty

/-- The text of a finding. -/
def message (declaration : Declaration) : String :=
  "Variable '" ++ declaration.name ++ "' is not used."

def find (context : PassContext) (declaration : Declaration) : List Finding :=
  if context.snapshot.isIgnoring declaration.module declaration.node info.name then []
  else
    (context.contextFinding? info ⟨declaration.module, declaration.node⟩
      (message declaration)).toList

def inspection : Inspection Collector :=
  .ofDeclarations info (fun snapshot ↦ snapshot.declarations.toList.filter isUnused) find

end VariableNotUsed

end VbaLint
