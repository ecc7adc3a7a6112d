import VbaLint.Project.Declaration
import VbaLint.Statement.Signature
import VbaLint.Statement.Variable
import VbaLint.Tree.Traversal

/-!
# What a node declares

Members, parameters, variables, constants, user-defined types and enumerations declare a name if
their text can be read and an identifier stands below them.
-/

namespace VbaLint

open Source Statement Text Tree

/-- What one node declares, without its place in the project. -/
structure Declared where
  name : String
  kind : DeclarationKind
  /-- The place of the name. -/
  selection : Selection
  asType : Option String := none
  isArray : Bool := false
  isAutoInstantiated : Bool := false
  isPublic : Bool := false
  deriving DecidableEq, Repr

/-- The first word of `text` is one of `keywords`, in any ASCII case. -/
def startsWithWord (keywords : List String) (text : String) : Bool :=
  let first := ((words text.toList).head?).getD []
  keywords.any fun keyword ↦ sameIgnoringCase keyword.toList first

/-- A type read backwards without the pairs of parentheses at its end. -/
def withoutArrayMarks : List Char → List Char
  | ')' :: '(' :: reversed => withoutArrayMarks reversed
  | reversed => reversed

def isArrayType (type : List Char) : Bool := ['(', ')'].isSuffixOf type

/-- The kind of declaration that a node of kind `kind` makes. -/
def memberDeclarationKind : NodeKind → DeclarationKind
  | .subStmt => .procedure
  | .functionStmt => .function
  | .propertyGetStmt => .propertyGet
  | .propertyLetStmt => .propertyLet
  | _ => .propertySet

namespace Tree.SyntaxTree

def nameBelow? (tree : SyntaxTree) (id : Nat) : Option (String × Selection) := do
  let name ← tree.firstChildOfKind? id .identifier
  let node ← tree.node? name
  some (node.text, node.selection)

/-- The item `id` stands in a module-level statement that begins with `Public` or `Global`. -/
def isPublicItem (tree : SyntaxTree) (id : Nat) : Bool :=
  (tree.enclosingProcedure? id).isNone &&
    (((tree.parent? id).bind tree.node?).any fun statement ↦
      startsWithWord ["public", "global"] statement.text)

def declaredMember? (tree : SyntaxTree) (id : Nat) (node : Node) : Option Declared := do
  let signature ← signature? node.text.toList
  let (name, selection) ← tree.nameBelow? id
  some
    { name, selection
      kind := memberDeclarationKind node.kind
      asType := signature.asType.map fun type ↦
        String.ofList (withoutArrayMarks type.reverse).reverse
      isArray := signature.asType.any isArrayType
      isPublic := signature.isPublic }

def declaredParameter? (tree : SyntaxTree) (id : Nat) (node : Node) : Option Declared := do
  let parameter ← parameter? node.text.toList
  let (_, selection) ← tree.nameBelow? id
  some
    { name := String.ofList parameter.name
      selection
      kind := .parameter
      asType := parameter.asType.map String.ofList
      isArray := parameter.isArray }

def declaredVariable? (tree : SyntaxTree) (id : Nat) (node : Node) : Option Declared := do
  let declared ← declaredItem? node.text.toList
  let (_, selection) ← tree.nameBelow? id
  some
    { name := String.ofList declared.name
      selection
      kind := .variableItem
      asType := declared.asType.map String.ofList
      isArray := declared.isArray
      isAutoInstantiated := declared.isNew
      isPublic := tree.isPublicItem id }

def declaredConstant? (tree : SyntaxTree) (id : Nat) : Option Declared := do
  let (name, selection) ← tree.nameBelow? id
  some { name, selection, kind := .constantItem, isPublic := tree.isPublicItem id }

def declaredBlock? (tree : SyntaxTree) (id : Nat) (node : Node) : Option Declared := do
  let (name, selection) ← tree.nameBelow? id
  some
    { name, selection
      kind := if node.kind = .typeStmt then .userDefinedType else .enumeration
      isPublic := !startsWithWord ["private"] node.text }

def declared? (tree : SyntaxTree) (id : Nat) : Option Declared := do
  let node ← tree.node? id
  match node.kind with
  | .subStmt | .functionStmt | .propertyGetStmt | .propertyLetStmt | .propertySetStmt =>
    tree.declaredMember? id node
  | .arg => tree.declaredParameter? id node
  | .variableSubStmt => tree.declaredVariable? id node
  | .constSubStmt => tree.declaredConstant? id
  | .typeStmt | .enumStmt => tree.declaredBlock? id node
  | _ => none

end Tree.SyntaxTree

end VbaLint
