import VbaLint.Toml.Scalar

/-!
# Documents of TOML

A document is read line by line: pairs of a dotted key and a value, and headers that open sections.
The sections are then put together into one table, in which no key is defined twice and no table is
opened twice. Keys and values are nested less than eighty levels deep.
-/

namespace VbaLint.Toml

/-- The number of parts of a key and of levels of a value is at most this. -/
def maxDepth : Nat := 79

/-! ### Keys -/

/-- A character of a key without quotes. -/
def isKeyPart (c : Char) : Bool := c.isAlphanum || c == '_' || c == '-'

def readKeyPart (text : List Char) : Reads String :=
  match readLineString text with
  | some read => some read
  | none =>
    let part := text.takeWhile isKeyPart
    if part.isEmpty then none else some (String.ofList part, text.dropWhile isKeyPart)

/-- Read a key of at most `depth` parts, with spaces around each: the path and the last part. -/
def readKey : Nat → List Char → Option ((List String × String) × List Char)
  | 0, _ => none
  | depth + 1, text => do
    let (part, rest) ← readKeyPart (text.dropWhile isSpace)
    match rest.dropWhile isSpace with
    | '.' :: rest =>
      let ((path, last), rest) ← readKey depth rest
      return ((part :: path, last), rest)
    | rest => return (([], part), rest)

/-! ### Values -/

structure Pair where
  path : List String
  key : String
  value : Value

def readPair (readOne : List Char → Reads Value) (text : List Char) :
    Option (Pair × List Char) := do
  let ((path, key), rest) ← readKey maxDepth text
  let rest ← readMark '=' rest
  let (value, rest) ← readOne (rest.dropWhile isSpace)
  return (⟨path, key, value⟩, rest.dropWhile isSpace)

/-- The rest behind spaces, line ends and comments; a comment counts only with its line end. -/
def skipComments (text : List Char) : List Char :=
  match text with
  | [] => []
  | '#' :: comment =>
    match h : afterNewline? (comment.dropWhile isPlain) with
    | some rest =>
      have := afterNewline?_length h
      have := (List.dropWhile_suffix isPlain (l := comment)).length_le
      skipComments rest
    | none => text
  | '\r' :: '\n' :: rest => skipComments rest
  | c :: rest => if isSpace c || c = '\n' then skipComments rest else c :: rest
termination_by text.length
decreasing_by all_goals simp only [List.length_cons] at *; omega

def readItems (readOne : List Char → Reads Value) :
    Nat → List Char → Option (List Value × List Char)
  | 0, _ => none
  | fuel + 1, text =>
    match skipComments text with
    | ']' :: rest => some ([], rest)
    | text => do
      let (item, rest) ← readOne text
      match skipComments rest with
      | ',' :: rest =>
        let (items, rest) ← readItems readOne fuel rest
        return (item :: items, rest)
      | ']' :: rest => return ([item], rest)
      | _ => none

/-- Read the pairs of an inline table, at least one, behind its brace. -/
def readPairs (readOne : List Char → Reads Value) :
    Nat → List Char → Option (List Pair × List Char)
  | 0, _ => none
  | fuel + 1, text => do
    let (pair, rest) ← readPair readOne text
    match rest with
    | ',' :: rest =>
      let (pairs, rest) ← readPairs readOne fuel rest
      return (pair :: pairs, rest)
    | '\x7d' :: rest => return ([pair], rest)
    | _ => none

def Table.fill (table : Table) (pairs : List Pair) : Option Table :=
  pairs.foldlM (fun table pair ↦ table.define pair.path pair.key pair.value) table

def readValue : Nat → List Char → Option (Value × List Char)
  | depth, '[' :: rest =>
    match depth with
    | 0 => none
    | depth + 1 =>
      (readItems (readValue depth) (rest.length + 1) rest).map fun (items, rest) ↦
        (.array items, rest)
  | depth, '\x7b' :: rest =>
    match depth with
    | 0 => none
    | depth + 1 =>
      match rest.dropWhile isSpace with
      | '\x7d' :: rest => some ((Table.empty .inline).toValue, rest)
      | text => do
        let (pairs, rest) ← readPairs (readValue depth) (text.length + 1) text
        let table ← (Table.empty .inline).fill pairs
        return (table.toValue, rest)
  | _, '"' :: rest => (readString ('"' :: rest)).map fun (text, rest) ↦ (.text text, rest)
  | _, '\'' :: rest => (readString ('\'' :: rest)).map fun (text, rest) ↦ (.text text, rest)
  | _, text => readWord text

/-! ### Lines -/

/-- A line that is neither blank nor only a comment. -/
inductive Line where
  | pair (pair : Pair)
  /-- A header, in single or in double brackets. -/
  | header (isRepeated : Bool) (path : List String) (key : String)

/-- The rest behind the end of a line, before which there may be a comment. -/
def afterLine? (text : List Char) : Option (List Char) :=
  let rest :=
    match text.dropWhile isSpace with
    | '#' :: comment => comment.dropWhile isPlain
    | rest => rest
  if rest.isEmpty then some [] else afterNewline? rest

def readHeader (text : List Char) : Option (Line × List Char) := do
  match text with
  | '[' :: '[' :: rest =>
    let ((path, key), rest) ← readKey maxDepth rest
    return (.header true path key, ← readMark ']' (← readMark ']' rest))
  | '[' :: rest =>
    let ((path, key), rest) ← readKey maxDepth rest
    return (.header false path key, ← readMark ']' rest)
  | _ => none

def readLine (text : List Char) : Reads Line :=
  if text.head? = some '[' then readHeader text
  else (readPair (readValue maxDepth) text).map fun (pair, rest) ↦ (.pair pair, rest)

def readLines : Nat → List Char → Option (List Line)
  | 0, _ => none
  | fuel + 1, text =>
    let text := text.dropWhile isSpace
    if text.isEmpty then some []
    else
      match afterLine? text with
      | some rest => readLines fuel rest
      | none => do
        let (line, rest) ← readLine text
        return line :: (← readLines fuel (← afterLine? rest))

/-! ### Sections -/

structure Section where
  isRepeated : Bool
  path : List String
  key : String
  pairs : List Pair

/-- The pairs before the first header, and the sections. -/
def sectionsOf : List Line → List Pair × List Section
  | [] => ([], [])
  | .pair pair :: rest =>
    let (pairs, sections) := sectionsOf rest
    (pair :: pairs, sections)
  | .header isRepeated path key :: rest =>
    let (pairs, sections) := sectionsOf rest
    ([], ⟨isRepeated, path, key, pairs⟩ :: sections)

/-- Put a section into the table that holds it. A table is opened once; the tables under repeated
headers are gathered. -/
def Table.open (owner : Table) (opened : Section) : Option Table := do
  if opened.isRepeated then
    let earlier ←
      match owner.find? opened.key with
      | none => some []
      | some (.tables items) => some items
      | some _ => none
    let table ← (empty .header).fill opened.pairs
    return owner.put opened.key (.tables (earlier ++ [table.entries]))
  else
    let entries ←
      match owner.find? opened.key with
      | none => some []
      | some (.table .implied entries) => some entries
      | some _ => none
    let table ← Table.fill ⟨.header, entries⟩ opened.pairs
    return owner.put opened.key table.toValue

def ofLines? (lines : List Line) : Option Table := do
  let (pairs, sections) := sectionsOf lines
  let root ← (Table.empty .header).fill pairs
  sections.foldlM (fun root opened ↦ root.changeAt .implied (·.open opened) opened.path) root

/-- Read a document; a byte order mark at its front is skipped. -/
def parse? (text : String) : Option Table := do
  let text :=
    match text.toList with
    | '\uFEFF' :: rest => rest
    | text => text
  ofLines? (← readLines (text.length + 1) text)

end VbaLint.Toml
