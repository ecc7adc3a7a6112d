import VbaLint.Text.Caseless

/-!
# File headers

Exported classes and forms begin with a `VERSION` line and nested `BEGIN` and `END` blocks that are no
code. A header can only start with the first statement of a file, and it ends with the `END` of its
outermost block, or before the first statement if no block follows the `VERSION` line.
-/

namespace VbaLint

open Text

/-- Where the reading of a file header stands. -/
inductive Header where
  /-- No statement has been read yet. -/
  | possible
  /-- In a header, with this many blocks open. -/
  | inside (depth : Nat)
  | done
  deriving DecidableEq, Repr

namespace Header

def opensBlock (statement : List Char) : Bool :=
  let lowered := lowerAscii statement
  lowered == "begin".toList || "begin ".toList.isPrefixOf lowered

/-- Where reading stands after a statement, and whether the statement belongs to the header. -/
def next (header : Header) (statement : List Char) : Header × Bool :=
  match header with
  | possible =>
    if "version ".toList.isPrefixOf (lowerAscii statement) then (inside 0, true) else (done, false)
  | inside depth =>
    if opensBlock statement then (inside (depth + 1), true)
    else
      match depth with
      | 0 => (done, false)
      | outer + 1 =>
        if lowerAscii statement == "end".toList then (if outer = 0 then done else inside outer, true)
        else (inside depth, true)
  | done => (done, false)

end Header

end VbaLint
