/-!
# Places in a text

Places in a text count the bytes of its UTF-8 form. A place that is not the end of a character cuts it in
two, and no text can be taken from such a place or up to it.
-/

namespace VbaLint.Text

def byteLength : List Char → Nat
  | [] => 0
  | c :: text => c.utf8Size + byteLength text

/-- The characters that end within the first `count` bytes. -/
def takeBytes (count : Nat) : List Char → List Char
  | [] => []
  | c :: text => if c.utf8Size ≤ count then c :: takeBytes (count - c.utf8Size) text else []

/-- The place is an end of a character, or the beginning of the text. -/
def isBoundary (text : List Char) (place : Nat) : Bool := byteLength (takeBytes place text) == place

/-- The text from byte `start` up to byte `stop`, unless one of the two cuts a character or lies behind
the text, or `stop` comes before `start`. -/
def slice? (text : List Char) (start stop : Nat) : Option (List Char) :=
  if isBoundary text start && isBoundary text stop && start ≤ stop then
    some ((takeBytes stop text).drop (takeBytes start text).length)
  else none

section

variable (text : List Char)

@[simp]
theorem byteLength_nil : byteLength [] = 0 := rfl

@[simp]
theorem byteLength_cons (c : Char) : byteLength (c :: text) = c.utf8Size + byteLength text := rfl

@[simp]
theorem byteLength_append (more : List Char) :
    byteLength (text ++ more) = byteLength text + byteLength more := by
  induction text with
  | nil => exact (Nat.zero_add _).symm
  | cons c text ih => rw [List.cons_append, byteLength_cons, ih, byteLength_cons, Nat.add_assoc]

theorem byteLength_pos (h : text ≠ []) : 0 < byteLength text := by
  obtain ⟨c, rest, rfl⟩ := List.exists_cons_of_ne_nil h
  exact Nat.add_pos_left c.utf8Size_pos _

/-- A beginning of a text is what is found within its bytes. -/
@[simp]
theorem takeBytes_append (more : List Char) : takeBytes (byteLength text) (text ++ more) = text := by
  induction text with
  | nil =>
    cases more with
    | nil => rfl
    | cons c more => exact if_neg (Nat.not_le.2 c.utf8Size_pos)
  | cons c text ih =>
    rw [List.cons_append, takeBytes, byteLength_cons, if_pos (Nat.le_add_right _ _),
      Nat.add_sub_cancel_left, ih]

/-- What stands between two texts is the slice between their places. -/
theorem slice?_append (part more : List Char) :
    slice? (text ++ part ++ more) (byteLength text) (byteLength (text ++ part)) = some part := by
  have hbefore : takeBytes (byteLength text) (text ++ part ++ more) = text := by
    rw [List.append_assoc, takeBytes_append]
  have hupTo : takeBytes (byteLength (text ++ part)) (text ++ part ++ more) = text ++ part :=
    takeBytes_append (text ++ part) more
  rw [slice?, isBoundary, isBoundary, hbefore, hupTo, List.drop_left]
  simp

end

end VbaLint.Text
