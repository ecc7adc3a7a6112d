/-!
# Paths

A path is text whose parts are separated by slashes. Repeated slashes, a slash at the end, and single
dots other than at the front do not count as parts. Paths are ordered part by part.
-/

namespace VbaLint.Files

/-- A part of a path. -/
inductive PathPart where
  | root
  | current
  | parent
  | name (text : String)
  deriving DecidableEq, Repr

namespace PathPart

def rank : PathPart → Nat
  | root => 0
  | current => 1
  | parent => 2
  | name _ => 3

/-- Special parts come before names, and names are in code point order. -/
def order : PathPart → PathPart → Ordering
  | name left, name right => compare left right
  | left, right => compare left.rank right.rank

end PathPart

def splitAtSlashes : List Char → List (List Char)
  | [] => [[]]
  | c :: rest =>
    match splitAtSlashes rest with
    | [] => [[c]]
    | piece :: more => if c = '/' then [] :: piece :: more else (c :: piece) :: more

/-- What stands between the slashes of a path. -/
def segments (path : String) : List String := (splitAtSlashes path.toList).map String.ofList

def partOfSegment? (segment : String) : Option PathPart :=
  if segment = "" || segment = "." then none
  else if segment = ".." then some .parent
  else some (.name segment)

def parts (path : String) : List PathPart :=
  match segments path with
  | [] => []
  | first :: rest =>
    let start :=
      if first = "" then if rest.isEmpty then none else some .root
      else if first = "." then some .current
      else partOfSegment? first
    start.toList ++ rest.filterMap partOfSegment?

def names (path : String) : List String :=
  (parts path).filterMap fun
    | .name text => some text
    | _ => none

def fileName? (path : String) : Option String :=
  match (parts path).getLast? with
  | some (.name text) => some text
  | _ => none

/-- A name cut at its last dot: the stem and the extension. A dot at the front does not count. -/
def splitName (name : String) : String × Option String :=
  let reversed := name.toList.reverse
  let extension := (reversed.takeWhile (· != '.')).reverse
  match reversed.dropWhile (· != '.') with
  | _ :: c :: stem => (String.ofList (c :: stem).reverse, some (String.ofList extension))
  | _ => (name, none)

def extension? (path : String) : Option String := (fileName? path).bind fun name ↦ (splitName name).2

/-- The name at the end of a path without its extension; nothing if there is no name. -/
def stem (path : String) : String := ((fileName? path).map fun name ↦ (splitName name).1).getD ""

/-- The segments of a path, read backwards, from the last part on. -/
def fromLastPart : List String → List String
  | [] => []
  | [first] => [first]
  | segment :: rest => if segment = "" || segment = "." then fromLastPart rest else segment :: rest

def parentPath (path : String) : String :=
  match fromLastPart (segments path).reverse with
  | [] => ""
  | [_] => ""
  | _ :: above =>
    match fromLastPart above with
    | [""] => "/"
    | above => "/".intercalate above.reverse

def join (path name : String) : String :=
  if path = "" || path.toList.getLast? = some '/' then path ++ name else path ++ "/" ++ name

/-- Part by part; a path comes before the paths below it. -/
def order (left right : String) : Ordering := orderParts (parts left) (parts right)
where
  /-- The order of lists of parts. -/
  orderParts : List PathPart → List PathPart → Ordering
    | [], [] => .eq
    | [], _ :: _ => .lt
    | _ :: _, [] => .gt
    | left :: lefts, right :: rights => (left.order right).then (orderParts lefts rights)

end VbaLint.Files
