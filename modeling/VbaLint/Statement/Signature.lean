import VbaLint.Statement.Items
import VbaLint.Statement.Scan
import VbaLint.Tree.NodeKind

/-!
# Signatures of members

The header of a `Sub`, `Function` or `Property`: access, kind, name, parameter list and result type.
The parameter list ends at the first closing parenthesis behind which the header can end, so it may
itself hold parentheses. The word `As` may follow the name directly.
-/

namespace VbaLint.Statement

open Text Tree

structure Signature where
  kind : NodeKind
  name : Span
  isPublic : Bool
  parameters : Option Span
  asType : Option (List Char)
  deriving DecidableEq, Repr

structure Parameter where
  name : List Char
  isArray : Bool
  asType : Option (List Char)
  deriving DecidableEq, Repr

/-- The word at the front of the text as it is spelled there, and the rest. -/
def takeWord (word : String) (text : List Char) : Option (List Char × List Char) :=
  (afterWord word.toList text).map fun rest ↦ (text.take word.length, rest)

/-- The last word of the kind of a member as it is spelled, and the rest. -/
def takeMemberWord (text : List Char) : Option (List Char × List Char) :=
  (takeWord "sub" text).or <|
    (takeWord "function" text).or <|
      (afterKeyword "property" text).bind fun rest ↦
        (takeWord "get" rest).or <| (takeWord "let" rest).or (takeWord "set" rest)

/-- The kind of member that a word names when its ASCII letters are lowered. A `Sub` written with a
long s is no ASCII word and counts as the last kind. -/
def memberKind (word : List Char) : NodeKind :=
  let lowered := lowerAscii word
  if lowered = "sub".toList then .subStmt
  else if lowered = "function".toList then .functionStmt
  else if lowered = "get".toList then .propertyGetStmt
  else if lowered = "let".toList then .propertyLetStmt
  else .propertySetStmt

/-- The result type of a header that goes on with `text`: the clause `As` and a type up to the end. -/
def resultType? (text : List Char) : Option (List Char) := do
  let clause ← afterWord "as".toList (trimStart text)
  let type ← afterBlanks clause
  if type = [] then
    if (clause.drop 1).any (· != '\n') then some [] else none
  else if (trimEnd type).contains '\n' then none
  else some (trimEnd type)

/-- The end of a header: a result type or nothing but blanks. -/
def signatureEnd? (text : List Char) : Option (Option (List Char)) :=
  match resultType? text with
  | some type => some (some type)
  | none => if allBlank text then some none else none

/-- The parameter list, whose opening parenthesis has been read, and the end of the header. -/
def parameterList? : List Char → Option (List Char × Option (List Char))
  | [] => none
  | c :: text =>
    let longer := (parameterList? text).map fun (list, type) ↦ (c :: list, type)
    if c = ')' then
      match signatureEnd? text with
      | some type => some ([], type)
      | none => longer
    else if c = '\n' then none
    else longer

/-- What follows the name of a member: parameter list and result type. -/
def afterMemberName? (text : List Char) : Option (Option (List Char) × Option (List Char)) :=
  match trimStart (skipTypeSuffix text) with
  | '(' :: inner => (parameterList? inner).map fun (list, type) ↦ (some list, type)
  | ending => (signatureEnd? ending).map fun type ↦ (none, type)

def takeAccess (text : List Char) : Option String × List Char :=
  match ["public", "private", "friend", "global"].findSome? fun word ↦
      (afterKeyword word text).map fun rest ↦ (word, rest) with
  | some (word, rest) => (some word, rest)
  | none => (none, text)

/-- The place of the parameter list `list` in the header `text`, of which `nameRest` follows the
name. -/
def parameterSpan (text nameRest list : List Char) : Span :=
  let opening := nameRest.takeWhile (· != '(')
  ⟨list, byteLength text - byteLength nameRest + byteLength opening + 1⟩

def signature? (text : List Char) : Option Signature := do
  let (access, afterAccess) := takeAccess text
  let (word, afterMember) ← takeMemberWord (skipOneOf ["static"] afterAccess)
  let (name, rest) ← (afterBlanks afterMember).bind takeName
  let isPublic := access != some "private"
  match afterMemberName? rest with
  | some (list, type) =>
    some
      { kind := memberKind word
        name := spanBefore text name rest
        isPublic
        parameters := (list.filter (!allBlank ·)).map (parameterSpan text rest)
        asType := type }
  | none =>
    if name.length < 3 then none
    else
      let type ← resultType? (name.drop (name.length - 2) ++ rest)
      some
        { kind := memberKind word
          name := ⟨name.take (name.length - 2), (spanBefore text name rest).offset⟩
          isPublic
          parameters := none
          asType := some type }

/-- The type that a clause `As` at the front of the text names. -/
def asClause? (text : List Char) : Option (List Char) := do
  let (type, _) ← (afterBlanks text).bind (afterKeyword "as") >>= takeDottedName
  some type

/-- The name of a parameter behind its modifiers, and the rest. A modifier that no name follows is
the name itself. -/
def takeParameterName (text : List Char) : Option (List Char × List Char) :=
  let afterOptional := skipOneOf ["optional"] text
  let afterPassing := skipOneOf ["byval", "byref"] afterOptional
  let afterArray := skipOneOf ["paramarray"] afterPassing
  (takeName afterArray).or <|
    (takeName afterPassing).or <| (takeName afterOptional).or (takeName text)

def afterEmptyParentheses (text : List Char) : Option (List Char) :=
  match trimStart text with
  | '(' :: inner =>
    match trimStart inner with
    | ')' :: rest => some rest
    | _ => none
  | _ => none

def parameter? (text : List Char) : Option Parameter := do
  let (name, rest) ← takeParameterName (trim text)
  let rest := skipTypeSuffix rest
  match afterEmptyParentheses rest with
  | some rest => some ⟨name, true, asClause? rest⟩
  | none => some ⟨name, false, asClause? rest⟩

end VbaLint.Statement
