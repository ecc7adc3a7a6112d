import Mathlib.Algebra.Ring.Parity
import VbaLint.Text.Blank

/-!
# String literals

Each quote ends a literal or begins one, so that a quote written twice in a literal leaves it and enters
the next. Whether a place lies in a literal is told by the number of quotes before it.
-/

namespace VbaLint.Text

variable {text front : List Char} {inString : Bool} {c : Char}

/-- What follows on the text stands in a string literal. -/
def InLiteral (text : List Char) : Prop := Odd (text.count '"')

instance : DecidablePred InLiteral := fun text ↦ inferInstanceAs (Decidable (Odd (text.count '"')))

/-- A literal is open behind the text, where one is open before it if `inString` holds. -/
def literalAfter (inString : Bool) (text : List Char) : Bool :=
  if InLiteral text then !inString else inString

theorem not_inLiteral_nil : ¬InLiteral [] := by decide

theorem inLiteral_cons (c : Char) (text : List Char) :
    InLiteral (c :: text) ↔ if c = '"' then ¬InLiteral text else InLiteral text := by
  unfold InLiteral
  split
  · next hquote => rw [hquote, List.count_cons_self, Nat.odd_add_one]
  · next hquote => rw [List.count_cons_of_ne hquote]

theorem literalAfter_nil (inString : Bool) : literalAfter inString [] = inString :=
  if_neg not_inLiteral_nil

theorem literalAfter_cons (inString : Bool) (c : Char) (text : List Char) :
    literalAfter inString (c :: text) =
      literalAfter (if c = '"' then !inString else inString) text := by
  rw [literalAfter, literalAfter]
  simp only [inLiteral_cons]
  by_cases hquote : c = '"' <;> by_cases htext : InLiteral text <;> simp [hquote, htext]

/-- Whether a literal is open behind a text can be told part by part. -/
theorem literalAfter_append (inString : Bool) (front text : List Char) :
    literalAfter inString (front ++ text) = literalAfter (literalAfter inString front) text := by
  induction front generalizing inString with
  | nil => rw [List.nil_append, literalAfter_nil]
  | cons c front ih => rw [List.cons_append, literalAfter_cons, ih, ← literalAfter_cons]

/-- A quote opens or closes a literal, and other characters do neither. -/
theorem literalAfter_concat (inString : Bool) (front : List Char) (c : Char) :
    literalAfter inString (front ++ [c]) =
      if c = '"' then !literalAfter inString front else literalAfter inString front := by
  rw [literalAfter_append, literalAfter_cons, literalAfter_nil]

/-- A place stands in a literal exactly if a literal is open there. -/
theorem literalAfter_false : literalAfter false text = true ↔ InLiteral text := by
  rw [literalAfter]
  split <;> simp [*]

theorem not_inLiteral_iff : ¬InLiteral text ↔ literalAfter false text = false := by
  rw [← literalAfter_false, Bool.not_eq_true]

/-- Without quotes literals are neither ended nor begun. -/
theorem literalAfter_of_not_mem (h : '"' ∉ text) : literalAfter inString text = inString := by
  have hnone : ¬InLiteral text := by
    rw [InLiteral, List.count_eq_zero.2 h]
    decide
  exact if_neg hnone

theorem not_mem_of_blank (htext : ∀ c ∈ text, isBlank c = true) (hc : isBlank c = false) : c ∉ text :=
  fun hmem ↦ Bool.false_ne_true (hc.symm.trans (htext c hmem))

/-- The characters that stand in no literal, without the quotes. -/
def outsideLiterals (inString : Bool) : List Char → List Char
  | [] => []
  | c :: text =>
    if c = '"' then outsideLiterals (!inString) text
    else if inString then outsideLiterals inString text
    else c :: outsideLiterals inString text

theorem length_outsideLiterals_le (inString : Bool) (text : List Char) :
    (outsideLiterals inString text).length ≤ text.length := by
  induction text generalizing inString with
  | nil => exact Nat.le_refl 0
  | cons c text ih =>
    rw [outsideLiterals]
    repeat' split
    · exact Nat.le_succ_of_le (ih _)
    · exact Nat.le_succ_of_le (ih _)
    · exact Nat.succ_le_succ (ih _)

end VbaLint.Text
