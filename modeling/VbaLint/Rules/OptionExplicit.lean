import VbaLint.Inspection.Basic

/-!
# Modules without `Option Explicit`

A module whose declarations hold no `Option Explicit` is reported, once.
-/

namespace VbaLint

open Tree

namespace OptionExplicit

def info : RuleInfo where
  name := "OptionExplicit"
  defaultSeverity := .error
  category := .codeQualityIssues
  description :=
    "Module does not specify 'Option Explicit'; undeclared variables are implicitly Variant."
  approach := .parseTree

structure Seen where
  /-- The option stands in the declarations that were entered last. -/
  hasOption : Bool
  /-- The node to report: the parent of the first declarations without the option. -/
  reported : Option Nat
  deriving DecidableEq, Repr

/-- Take note of a visit. -/
def Seen.visit (tree : SyntaxTree) (seen : Seen) : Visit → Seen
  | .enter .moduleDeclarations _ => { seen with hasOption := false }
  | .enter .optionExplicitStmt _ => { seen with hasOption := true }
  | .leave .moduleDeclarations id =>
    if seen.hasOption then seen
    else { seen with reported := seen.reported.or (tree.parent? id) }
  | _ => seen

def select (tree : SyntaxTree) : List Nat :=
  (tree.visits.foldl (Seen.visit tree) ⟨false, none⟩).reported.toList

def message (module : ModuleName) : String :=
  "'Option Explicit' is not specified in '" ++ module.component ++ "'."

def inspection : Inspection Collector := .ofTrees info select message

end OptionExplicit

end VbaLint
