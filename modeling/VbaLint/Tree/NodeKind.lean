/-!
# Kinds of nodes

The parts of a module that the rules tell apart. A statement of any other form is `otherStmt`.
-/

namespace VbaLint.Tree

/-- The kind of a node. -/
inductive NodeKind where
  | module
  | moduleDeclarations
  | moduleDeclarationsElement
  | optionExplicitStmt
  | optionBaseStmt
  | optionCompareStmt
  | optionPrivateModuleStmt
  | attributeStmt
  | variableStmt
  | variableSubStmt
  | constStmt
  | constSubStmt
  | typeStmt
  | enumStmt
  | moduleBody
  | subStmt
  | functionStmt
  | propertyGetStmt
  | propertyLetStmt
  | propertySetStmt
  | arg
  | block
  | letStmt
  | setStmt
  | callStmt
  | otherStmt
  | identifier
  | expression
  deriving DecidableEq, Repr, Hashable, Inhabited

namespace NodeKind

/-- Every kind, in order of declaration. -/
def all : List NodeKind :=
  [module, moduleDeclarations, moduleDeclarationsElement, optionExplicitStmt, optionBaseStmt,
    optionCompareStmt, optionPrivateModuleStmt, attributeStmt, variableStmt, variableSubStmt,
    constStmt, constSubStmt, typeStmt, enumStmt, moduleBody, subStmt, functionStmt,
    propertyGetStmt, propertyLetStmt, propertySetStmt, arg, block, letStmt, setStmt, callStmt,
    otherStmt, identifier, expression]

def label : NodeKind → String
  | module => "Module"
  | moduleDeclarations => "ModuleDeclarations"
  | moduleDeclarationsElement => "ModuleDeclarationsElement"
  | optionExplicitStmt => "OptionExplicitStmt"
  | optionBaseStmt => "OptionBaseStmt"
  | optionCompareStmt => "OptionCompareStmt"
  | optionPrivateModuleStmt => "OptionPrivateModuleStmt"
  | attributeStmt => "AttributeStmt"
  | variableStmt => "VariableStmt"
  | variableSubStmt => "VariableSubStmt"
  | constStmt => "ConstStmt"
  | constSubStmt => "ConstSubStmt"
  | typeStmt => "TypeStmt"
  | enumStmt => "EnumStmt"
  | moduleBody => "ModuleBody"
  | subStmt => "SubStmt"
  | functionStmt => "FunctionStmt"
  | propertyGetStmt => "PropertyGetStmt"
  | propertyLetStmt => "PropertyLetStmt"
  | propertySetStmt => "PropertySetStmt"
  | arg => "Arg"
  | block => "Block"
  | letStmt => "LetStmt"
  | setStmt => "SetStmt"
  | callStmt => "CallStmt"
  | otherStmt => "OtherStmt"
  | identifier => "Identifier"
  | expression => "Expression"

def ofLabel? (text : String) : Option NodeKind := all.find? fun kind ↦ kind.label == text

/-- A member of a module: `Sub`, `Function` or `Property`. -/
def isProcedure : NodeKind → Bool
  | subStmt | functionStmt | propertyGetStmt | propertyLetStmt | propertySetStmt => true
  | _ => false

/-- A statement that introduces named declarations. -/
def isDeclaration (kind : NodeKind) : Bool :=
  kind.isProcedure || kind == variableStmt || kind == constStmt || kind == typeStmt ||
    kind == enumStmt

/-- A node whose identifier child names the declaration itself. -/
def declaresName (kind : NodeKind) : Bool :=
  kind.isProcedure || kind == arg || kind == variableSubStmt || kind == constSubStmt ||
    kind == typeStmt || kind == enumStmt

end NodeKind

end VbaLint.Tree
