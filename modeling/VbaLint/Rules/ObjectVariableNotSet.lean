import VbaLint.Config
import VbaLint.Inspection.Basic
import VbaLint.Rules.SetAssignment

/-!
# Object variables assigned without `Set`

Every assignment to a declaration that holds an object is reported if it is written without `Set`. If
the rule is set up so, `Set x = Nothing` is reported as well.
-/

namespace VbaLint

open Text Tree

namespace ObjectVariableNotSet

def info : RuleInfo where
  name := "ObjectVariableNotSet"
  defaultSeverity := .error
  category := .codeQualityIssues
  description := "Object reference is assigned without the 'Set' keyword."
  approach := .reference

/-- The value that a statement assigns, its last expression, is `Nothing`. -/
def assignsNothing (tree : SyntaxTree) (statement : Nat) : Bool :=
  (((tree.childrenOfKind statement .expression).getLast?).bind tree.node?).any fun value ↦
    sameName (trimString value.text) "Nothing"

/-- The reference stands in an assignment of the reported kind. -/
def isOffending (settings : RuleSettings) (snapshot : Snapshot) (reference : Reference) : Bool :=
  (snapshot.tree? reference.module).any fun tree ↦
    (tree.ancestorOfKind? reference.node .letStmt).isSome ||
      (settings.flagSetNothing &&
        (tree.ancestorOfKind? reference.node .setStmt).any (assignsNothing tree))

def offences (settings : RuleSettings) (snapshot : Snapshot) (declaration : Declaration) :
    List Reference :=
  if snapshot.requiresSet declaration then
    declaration.references.toList.filter fun reference ↦
      reference.isAssignment && (snapshot.declaration? reference.declaration).isSome &&
        isOffending settings snapshot reference &&
        !snapshot.isIgnoring reference.module reference.node info.name
  else []

def message (reference : Reference) : String :=
  "Object variable '" ++ reference.identifier ++ "' is assigned without the 'Set' keyword."

def inspection (settings : RuleSettings) : Inspection Collector :=
  .ofDeclarations info (·.declarations.toList) fun context declaration ↦
    (offences settings context.snapshot declaration).filterMap fun reference ↦
      context.referenceFinding? info reference (message reference)

end ObjectVariableNotSet

end VbaLint
