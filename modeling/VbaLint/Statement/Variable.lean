import VbaLint.Statement.Scan

/-!
# Declared variables

One item of a variable statement: a name, array bounds, and the type with an optional `New`.
-/

namespace VbaLint.Statement

open Text

structure Variable where
  name : List Char
  isArray : Bool
  isNew : Bool
  asType : Option (List Char)
  deriving DecidableEq, Repr

/-- The name of a variable behind `WithEvents`, and the rest. The word is itself the name if no name
follows it. -/
def takeVariableName (text : List Char) : Option (List Char × List Char) :=
  (takeName (skipOneOf ["withevents"] text)).or (takeName text)

def afterBounds (text : List Char) : Option (List Char) :=
  match trimStart text with
  | '(' :: inner =>
    match inner.dropWhile (· != ')') with
    | _ :: rest => some rest
    | [] => none
  | _ => none

/-- The type that a clause `As` or `As New` at the front of the text names, and whether `New` is
there. The word `New` is itself the type if no type follows it. -/
def newClause? (text : List Char) : Option (Bool × List Char) := do
  let clause ← (afterBlanks text).bind (afterKeyword "as")
  match (afterKeyword "new" clause).bind takeDottedName with
  | some (type, _) => some (true, type)
  | none => (takeDottedName clause).map fun (type, _) ↦ (false, type)

def declaredItem? (text : List Char) : Option Variable := do
  let (name, rest) ← takeVariableName (trim text)
  let rest := skipTypeSuffix rest
  let (isArray, rest) :=
    match afterBounds rest with
    | some rest => (true, rest)
    | none => (false, rest)
  match newClause? rest with
  | some (isNew, type) => some ⟨name, isArray, isNew, some type⟩
  | none => some ⟨name, isArray, false, none⟩

end VbaLint.Statement
