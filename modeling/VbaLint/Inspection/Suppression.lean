import VbaLint.Project.Snapshot

/-!
# Suppression

An `Ignore` annotation silences rules at a node and everything below it, an `IgnoreModule` annotation
in a whole module. The nearest scope that names the rule decides: the node itself and the nodes above
it from the inside out, then the module. A location that the snapshot does not know is never
silenced.
-/

namespace VbaLint

open Statement Text Tree

/-- The kind of place where an annotation silences a rule. -/
inductive SuppressionScope where
  | statement
  | declaration
  | module
  deriving DecidableEq, Repr

def SuppressionScope.ofKind (kind : NodeKind) : SuppressionScope :=
  if kind.isDeclaration || kind == .variableSubStmt || kind == .constSubStmt || kind == .arg then
    .declaration
  else .statement

/-- The text without `ending` at its end, unless it is nothing else. -/
def dropProperSuffix (ending text : List Char) : List Char :=
  if ending.isSuffixOf text && text.length > ending.length then
    text.take (text.length - ending.length)
  else text

/-- The form in which names of rules are compared: trimmed, in lower case, and without the word
`inspection` at the end. -/
def ruleKey (name : String) : List Char :=
  dropProperSuffix "inspection".toList (lowerAscii (trim name.toList))

/-- The names that an annotation lists cover a rule; an empty list covers every rule. -/
def namesCover (names : List String) (rule : String) : Bool :=
  names.isEmpty || names.any fun name ↦ ruleKey name == ruleKey rule

namespace Annotation

def silencesModule (note : Annotation) (rule : String) : Bool :=
  match note.directive, note.target with
  | .ignoreModule names, _ | .ignore names, .module => namesCover names rule
  | _, _ => false

def silencesNode (note : Annotation) (node : Nat) (rule : String) : Bool :=
  match note.directive, note.target with
  | .ignore names, .node target => target == node && namesCover names rule
  | _, _ => false

def silences (note : Annotation) : Bool := note.directive.suppressedNames?.isSome

end Annotation

namespace Snapshot

def hasSuppression (snapshot : Snapshot) : Bool :=
  snapshot.modules.any fun module ↦ module.parsed.annotations.any (·.silences)

/-- The nearest scope in which an annotation silences the rule at the node. -/
def suppressingScope? (snapshot : Snapshot) (module : ModuleName) (node : Nat) (rule : String) :
    Option SuppressionScope := do
  let source ← snapshot.module? module
  let tree := source.parsed.tree
  let annotations := source.parsed.annotations
  guard (node < tree.size)
  let silenced := (node :: tree.ancestors node).find? fun id ↦
    annotations.any (·.silencesNode id rule)
  match silenced with
  | some id => (tree.kind? id).map .ofKind
  | none => if annotations.any (·.silencesModule rule) then some .module else none

def isIgnoring (snapshot : Snapshot) (module : ModuleName) (node : Nat) (rule : String) : Bool :=
  (snapshot.suppressingScope? module node rule).isSome

end Snapshot

end VbaLint
