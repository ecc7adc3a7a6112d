import VbaLint.Inspection.Basic

/-!
# Assignments with the word `Let`

The word `Let` in front of an assignment has no effect, and every use of it is reported.
-/

namespace VbaLint

open Text Tree

namespace ObsoleteLetStatement

def info : RuleInfo where
  name := "ObsoleteLetStatement"
  defaultSeverity := .suggestion
  category := .languageOpportunities
  description := "The 'Let' keyword is optional and only kept for backward compatibility."
  approach := .parseTree

/-- The text begins with the word `Let`. -/
def beginsWithLet (text : String) : Bool :=
  (words text.toList).head?.any fun word ↦ sameIgnoringCase word "let".toList

def select (tree : SyntaxTree) : List Nat :=
  tree.visits.filterMap fun
    | .enter .letStmt id =>
      if (tree.node? id).any fun node ↦ beginsWithLet node.text then some id else none
    | _ => none

def inspection : Inspection Collector :=
  .ofTrees info select fun _ ↦ "Assignment uses obsolete 'Let' keyword."

end ObsoleteLetStatement

end VbaLint
