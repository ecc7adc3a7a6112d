/-!
# JSON

Values and their printed form: two blanks for each level, one item on a line, records in code point
order of their keys.
-/

namespace VbaLint

/-- A JSON value. -/
inductive Json where
  | null
  | boolean (value : Bool)
  | number (value : Int)
  /-- A number that is not written as an integer. -/
  | decimal (literal : String)
  | text (value : String)
  | list (items : List Json)
  | record (fields : List (String × Json))

namespace Json

instance : Inhabited Json := ⟨null⟩

def natural (value : Nat) : Json := .number value

def field? : Json → String → Option Json
  | .record fields, name => fields.lookup name
  | _, _ => none

def text? : Json → Option String
  | .text value => some value
  | _ => none

def items? : Json → Option (List Json)
  | .list items => some items
  | _ => none

/-- A natural number below `bound`. -/
def naturalBelow? (bound : Nat) : Json → Option Nat
  | .number (.ofNat value) => if value < bound then some value else none
  | _ => none

def hexDigit (value : Nat) : Char :=
  Char.ofNat (if value < 10 then '0'.toNat + value else 'a'.toNat + (value - 10))

def escape (c : Char) : List Char :=
  if c = '"' then ['\\', '"']
  else if c = '\\' then ['\\', '\\']
  else if c = '\x08' then ['\\', 'b']
  else if c = '\t' then ['\\', 't']
  else if c = '\n' then ['\\', 'n']
  else if c = '\x0c' then ['\\', 'f']
  else if c = '\r' then ['\\', 'r']
  else if c.toNat < 0x20 then
    ['\\', 'u', '0', '0', hexDigit (c.toNat / 16), hexDigit (c.toNat % 16)]
  else [c]

def quote (text : String) : String := "\"" ++ String.ofList (text.toList.flatMap escape) ++ "\""

def lineBreak (level : Nat) : String := "\n" ++ String.ofList (List.replicate (2 * level) ' ')

/-- Items between brackets, each on a line of its own. -/
def bracket (level : Nat) (opening closing : String) (items : List String) : String :=
  if items.isEmpty then opening ++ closing
  else
    opening ++ ",".intercalate (items.map (lineBreak (level + 1) ++ ·)) ++ lineBreak level ++ closing

def sortFields {α : Type} (fields : List (String × α)) : List (String × α) :=
  fields.mergeSort fun left right ↦ compare left.1 right.1 != .gt

mutual

def prettyAt (level : Nat) : Json → String
  | .null => "null"
  | .boolean value => if value then "true" else "false"
  | .number value => toString value
  | .decimal literal => literal
  | .text value => quote value
  | .list items => bracket level "[" "]" (prettyItems (level + 1) items)
  | .record fields =>
    bracket level "\x7b" "\x7d" <|
      (sortFields (prettyFields (level + 1) fields)).map fun field ↦
        quote field.1 ++ ": " ++ field.2

def prettyItems (level : Nat) : List Json → List String
  | [] => []
  | item :: rest => prettyAt level item :: prettyItems level rest

def prettyFields (level : Nat) : List (String × Json) → List (String × String)
  | [] => []
  | (name, value) :: rest => (name, prettyAt level value) :: prettyFields level rest

end

def pretty (value : Json) : String := prettyAt 0 value

end Json

end VbaLint
