/-!
# Values and tables of TOML

A table is written in one of four ways, and what may still be added to it depends on which: under a
header of its own, as a mere step on the way to another header, through dotted keys, or inline.
-/

namespace VbaLint.Toml

/-- How a table came to be. -/
inductive TableOrigin where
  /-- Under a header of its own. -/
  | header
  /-- On the way to another header. -/
  | implied
  /-- Through dotted keys. -/
  | dotted
  /-- In braces. -/
  | inline
  deriving DecidableEq, Repr

inductive Value where
  | text (value : String)
  | boolean (value : Bool)
  | integer (value : Int)
  /-- A number with a point or an exponent, or an infinity, or no number. -/
  | float (literal : String)
  /-- A date, a time, or both. -/
  | moment (literal : String)
  | array (items : List Value)
  | table (origin : TableOrigin) (entries : List (String × Value))
  /-- Tables under repeated headers in double brackets. -/
  | tables (items : List (List (String × Value)))

/-- The entries of a table with how it came to be. -/
structure Table where
  origin : TableOrigin
  entries : List (String × Value)

namespace Table

def empty (origin : TableOrigin) : Table := ⟨origin, []⟩

def find? (table : Table) (key : String) : Option Value := table.entries.lookup key

def putEntry (key : String) (value : Value) : List (String × Value) → List (String × Value)
  | [] => [(key, value)]
  | entry :: rest =>
    if entry.1 = key then (key, value) :: rest else entry :: putEntry key value rest

def put (table : Table) (key : String) (value : Value) : Table :=
  { table with entries := putEntry key value table.entries }

def toValue (table : Table) : Value := .table table.origin table.entries

/-- Change the table at the end of a path of keys. Tables that are missing on the way are made; the
way leads through the last of repeated tables, but not through inline tables and other values, and
through dotted keys not into a table with a header of its own. -/
def changeAt (made : TableOrigin) (change : Table → Option Table) (table : Table) :
    List String → Option Table
  | [] => change table
  | key :: path =>
    match table.find? key with
    | none => do
      let below ← changeAt made change (empty made) path
      return table.put key below.toValue
    | some (.table .inline _) => none
    | some (.table origin entries) =>
      if made = .dotted && origin = .header then none
      else do
        let below ← changeAt made change ⟨origin, entries⟩ path
        return table.put key below.toValue
    | some (.tables items) =>
      match items.reverse with
      | [] => none
      | last :: earlier => do
        let below ← changeAt made change ⟨.header, last⟩ path
        return table.put key (.tables (earlier.reverse ++ [below.entries]))
    | some _ => none

/-- Set a new key. Below a dotted path the table must come from dotted keys. -/
def define (table : Table) (path : List String) (key : String) (value : Value) : Option Table :=
  table.changeAt .dotted
    (fun owner ↦
      if (owner.origin == .dotted) == path.isEmpty || (owner.find? key).isSome then none
      else some (owner.put key value))
    path

end Table

end VbaLint.Toml
