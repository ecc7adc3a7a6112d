import VbaLint.Module.Name
import VbaLint.Source.Selection

/-!
# Declarations and references

A declaration is a named entity of the project; a reference is an occurrence of its name. A
declaration carries its references in source order. Declarations are numbered in order without bound; 32
bits tell the numbers of 2³² declarations apart.
-/

namespace VbaLint

open Source Text

/-- What a declaration declares. -/
inductive DeclarationKind where
  | module
  | procedure
  | function
  | propertyGet
  | propertyLet
  | propertySet
  | parameter
  | variableItem
  | constantItem
  | userDefinedType
  | enumeration
  deriving DecidableEq, Repr

namespace DeclarationKind

def label : DeclarationKind → String
  | module => "Module"
  | procedure => "Procedure"
  | function => "Function"
  | propertyGet => "PropertyGet"
  | propertyLet => "PropertyLet"
  | propertySet => "PropertySet"
  | parameter => "Parameter"
  | variableItem => "Variable"
  | constantItem => "Constant"
  | userDefinedType => "UserDefinedType"
  | enumeration => "Enumeration"

/-- Members whose name is assigned to give the result. -/
def returnsValue (kind : DeclarationKind) : Bool := kind == function || kind == propertyGet

def isMember : DeclarationKind → Bool
  | procedure | function | propertyGet | propertyLet | propertySet => true
  | _ => false

end DeclarationKind

/-- An occurrence of the name of a declaration. -/
structure Reference where
  module : ModuleName
  /-- The identifier node of the occurrence. -/
  node : Nat
  selection : Selection
  identifier : String
  /-- The occurrence is the target of an assignment. -/
  isAssignment : Bool
  /-- The number of the declaration. -/
  declaration : Nat
  deriving DecidableEq, Repr

/-- A named entity of the project. -/
structure Declaration where
  /-- The place of the declaration in its project. -/
  id : Nat
  name : String
  kind : DeclarationKind
  module : ModuleName
  /-- The declaration that encloses it: the module for a member, the member for a local name. -/
  parentScope : Option Nat
  /-- The declared type as written. -/
  asType : Option String
  isArray : Bool
  /-- Declared with `As New`. -/
  isAutoInstantiated : Bool
  isPublic : Bool
  /-- The node that declares the entity. -/
  node : Nat
  /-- The place of the name. -/
  selection : Selection
  references : Array Reference
  deriving DecidableEq, Repr

namespace Declaration

def hasAssignment (declaration : Declaration) : Bool :=
  declaration.references.any (·.isAssignment)

def reads (declaration : Declaration) : List Reference :=
  declaration.references.toList.filter (!·.isAssignment)

/-- The declaration has the given name, in any ASCII case. -/
def isNamed (declaration : Declaration) (name : String) : Bool := sameName declaration.name name

end Declaration

end VbaLint
