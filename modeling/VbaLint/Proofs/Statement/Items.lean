import VbaLint.Proofs.Text.Spans
import VbaLint.Statement.Items

/-!
# The pieces of a list

The scan of a list cuts it at the commas outside literals and parentheses. The places at which it takes
its items are ends of characters, so it always gives an answer: the trimmed pieces where they stand.
-/

namespace VbaLint.Statement

open Text

/-- The pieces between top-level commas. -/
def itemPieces (depth : Int32) (inString : Bool) : List Char → List (List Char)
  | [] => [[]]
  | c :: rest =>
    if c = ',' && !inString && depth ≤ 0 then [] :: itemPieces depth inString rest
    else
      consPiece c <|
        itemPieces (if inString then depth else depthAfter depth c)
          (if c = '"' then !inString else inString) rest

/-- Characters that cut nothing go into the first piece. -/
theorem foldr_consPiece (text piece : List Char) (pieces : List (List Char)) :
    text.foldr consPiece (piece :: pieces) = (text ++ piece) :: pieces := by
  induction text with
  | nil => rfl
  | cons c text ih => rw [List.foldr_cons, ih]; rfl

/-- The pieces are what is left of a list when its top-level commas are cut out. -/
theorem cutAt_itemPieces (depth : Int32) (inString : Bool) (text : List Char) :
    CutAt (· = ',') text (itemPieces depth inString text) := by
  induction text generalizing depth inString with
  | nil => exact .last []
  | cons c text ih =>
    rw [itemPieces]
    split
    · next hcut =>
      obtain rfl : c = ',' := by simp_all
      exact CutAt.cons (p := (· = ',')) [] rfl rfl (ih depth inString)
    · exact (ih _ _).consPiece c

theorem locatePieces_cons (offset : Nat) (piece : List Char) (pieces : List (List Char)) :
    locatePieces offset (piece :: pieces) =
      locatePieces offset [piece] ++ locatePieces (offset + byteLength piece + 1) pieces := by
  rw [locatePieces, locatePieces, locatePieces]
  split <;> rfl

/-- The bytes before what is left of a piece are those of the blanks in front. -/
theorem byteLength_sub_trimStart (piece : List Char) :
    byteLength piece - byteLength (trimStart piece) = byteLength (piece.takeWhile isBlank) := by
  have hparts := congrArg byteLength (takeWhile_append_trimStart piece)
  rw [byteLength_append] at hparts
  omega

/-- Between two places of the text that end characters an item is looked for. -/
theorem itemIn?_append (before piece behind : List Char) :
    itemIn? (before ++ piece ++ behind) (byteLength before) (byteLength (before ++ piece)) =
      some (locatePieces (byteLength before) [piece]) := by
  rw [itemIn?, slice?_append, Option.map_some, byteLength_sub_trimStart, locatePieces]
  rfl

/-- Behind `before`, where the piece that is begun is `piece`, the scan finds the pieces of the rest. -/
theorem itemsFrom?_eq (depth : Int32) (inString : Bool) (before piece rest : List Char) :
    itemsFrom? (before ++ piece ++ rest) depth inString (byteLength before)
        (byteLength (before ++ piece)) rest =
      some (locatePieces (byteLength before) (piece.foldr consPiece (itemPieces depth inString rest))) := by
  induction rest generalizing depth inString before piece with
  | nil =>
    have hend := itemIn?_append before piece []
    rw [List.append_nil] at hend ⊢
    rw [itemsFrom?, hend, itemPieces, foldr_consPiece, List.append_nil]
  | cons c rest ih =>
    have hwhole : before ++ piece ++ c :: rest = before ++ (piece ++ [c]) ++ rest := by simp
    rw [itemsFrom?, itemPieces]
    split
    · next hcut =>
      obtain rfl : c = ',' := by simp_all
      have hlater := ih depth inString (before ++ piece ++ [',']) []
      have hplace : byteLength (before ++ piece ++ [',']) = byteLength (before ++ piece) + 1 :=
        byteLength_append ..
      rw [List.append_nil, hplace, List.append_assoc _ [','], List.singleton_append] at hlater
      rw [itemIn?_append, foldr_consPiece, List.append_nil, locatePieces_cons _ _ (itemPieces ..),
        ← byteLength_append]
      exact congrArg (Option.bind · fun later ↦ some (locatePieces (byteLength before) [piece] ++ later))
        hlater
    · have hlater := ih (if inString then depth else depthAfter depth c)
        (if c = '"' then !inString else inString) before (piece ++ [c])
      have hplace : byteLength (before ++ (piece ++ [c])) = byteLength (before ++ piece) + c.utf8Size := by
        simp only [byteLength_append, byteLength_cons, byteLength_nil]
        omega
      rw [hplace, List.foldr_append] at hlater
      rw [hwhole, hlater]
      rfl

/-- The scan gives the trimmed pieces of the list with their places. -/
theorem items?_eq (list : List Char) : items? list = some (locatePieces 0 (itemPieces 0 false list)) :=
  itemsFrom?_eq 0 false [] [] list

/-- The items of a list are its pieces without their outer blanks. -/
theorem items_eq (list : List Char) : items list = locatePieces 0 (itemPieces 0 false list) := by
  rw [items, items?_eq, Option.getD_some]

end VbaLint.Statement
