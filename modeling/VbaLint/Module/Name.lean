import VbaLint.Text.Caseless

/-!
# Names and types of modules

A module is named by its project and its component. The extension of an exported file tells the type
of its component; only members of standard modules are visible from other modules.
-/

namespace VbaLint

open Text

structure ModuleName where
  project : String
  component : String
  deriving DecidableEq, Repr, Hashable, Inhabited

namespace ModuleName

def label (name : ModuleName) : String := name.project ++ "." ++ name.component

/-- By project, then by component, both in code point order. -/
def order (left right : ModuleName) : Ordering :=
  (compare left.project right.project).then (compare left.component right.component)

end ModuleName

/-- The type of component that a module was exported from. -/
inductive ComponentType where
  | standardModule
  | classModule
  | userForm
  /-- A module of the host document. -/
  | document
  deriving DecidableEq, Repr, Inhabited

namespace ComponentType

def all : List ComponentType := [standardModule, classModule, userForm, document]

def label : ComponentType → String
  | standardModule => "StandardModule"
  | classModule => "ClassModule"
  | userForm => "UserForm"
  | document => "Document"

def ofLabel? (text : String) : Option ComponentType := all.find? fun type ↦ type.label == text

def extension : ComponentType → String
  | standardModule => "bas"
  | classModule => "cls"
  | userForm => "frm"
  | document => "doccls"

/-- The type that a file extension stands for, in any ASCII case. -/
def ofExtension? (text : String) : Option ComponentType :=
  all.find? fun type ↦ type.extension == lowerAsciiString text

/-- Public members are visible from other modules. -/
def exposesPublicMembers (type : ComponentType) : Bool := type == standardModule

end ComponentType

end VbaLint
