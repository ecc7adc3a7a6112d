import VbaLint.Inspection.Basic

/-!
# `Option Base 1`

The statement silently shifts the lower bound of every array without an explicit one, and is reported.
-/

namespace VbaLint

open Text Tree

namespace OptionBase

def info : RuleInfo where
  name := "OptionBase"
  defaultSeverity := .hint
  category := .maintainabilityAndReadabilityIssues
  description := "'Option Base 1' changes the default lower bound of arrays in the module."
  approach := .parseTree

/-- The third word of the statement is the digit one. -/
def isBaseOne (text : String) : Bool := (words text.toList)[2]? == some ['1']

def select (tree : SyntaxTree) : List Nat :=
  tree.visits.filterMap fun
    | .enter .optionBaseStmt id =>
      if (tree.node? id).any fun node ↦ isBaseOne node.text then some id else none
    | _ => none

def message (module : ModuleName) : String :=
  "Component '" ++ module.component ++ "' uses 'Option Base 1'."

def inspection : Inspection Collector := .ofTrees info select message

end OptionBase

end VbaLint
