import VbaLint.Project.Snapshot
import VbaLint.Text.Lowercase

/-!
# Declarations that hold objects

Whether the value of a declaration is assigned with `Set` follows from its declared type. Without one,
or with `Variant`, it may hold either kind of value; arrays are assigned element by element; and the
intrinsic value types and the types and enumerations of the project are assigned with `Let`.
-/

namespace VbaLint

open Text

/-- The intrinsic types whose values are assigned with `Let`. -/
def valueTypes : List String :=
  ["Boolean", "Byte", "Currency", "Date", "Decimal", "Double", "Integer", "Long", "LongLong",
    "LongPtr", "Single", "String"]

/-- The type without a length after an asterisk and without qualification. -/
def baseType (type : String) : String :=
  let unsized := trim (type.toList.takeWhile (· != '*'))
  String.ofList (unsized.reverse.takeWhile (· != '.')).reverse

/-- The declaration is of a kind that is assigned values. -/
def Declaration.holdsValue (declaration : Declaration) : Bool :=
  declaration.kind == .variableItem || declaration.kind == .parameter ||
    declaration.kind.returnsValue

def Declaration.isValueType (declaration : Declaration) : Bool :=
  declaration.kind == .userDefinedType || declaration.kind == .enumeration

namespace Snapshot

/-- The name is that of a user-defined type or an enumeration of the project, in any case. -/
def isUserValueType (snapshot : Snapshot) (name : String) : Bool :=
  let key := lowercase name
  snapshot.declarations.any fun declaration ↦
    declaration.isValueType && lowercase declaration.name == key

/-- The type holds objects. -/
def isObjectType (snapshot : Snapshot) (type : String) : Bool :=
  let base := baseType type
  !sameName base "Variant" && !valueTypes.any (sameName base) && !snapshot.isUserValueType base

/-- Assigning to the declaration takes `Set`. -/
def requiresSet (snapshot : Snapshot) (declaration : Declaration) : Bool :=
  declaration.holdsValue && !declaration.isArray &&
    declaration.asType.any snapshot.isObjectType

end Snapshot

end VbaLint
