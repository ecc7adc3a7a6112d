import Mathlib.Data.List.Infix
import VbaLint.Proofs.Statement.Namings
import VbaLint.Proofs.Statement.ParameterList
import VbaLint.Proofs.Text.Literals
import VbaLint.Proofs.Text.Weaving

/-!
# Items of lists

Taking the items of a list gives back what was joined with commas, if each item closes the literals and
parentheses that it opens and has its commas in them. In every text the items stand one behind the other,
with nothing but commas and blanks between them.
-/

namespace VbaLint.Statement

open Text

variable {text front rest : List Char}

/-! ## Texts that can be items -/

/-- The number of parentheses that the text opens outside literals less the number that it closes. -/
def nesting (text : List Char) : Int :=
  (outsideLiterals false text).count '(' - (outsideLiterals false text).count ')'

/-- A trimmed text that is closed in itself and shows no comma outside literals and parentheses. The
parentheses are counted in 32 bits, so fewer than 2 ^ 31 of them are open at any place, as in every text of
fewer characters. -/
structure IsEntry (text : List Char) : Prop where
  ne_nil : text ≠ []
  trim_eq : trim text = text
  closed : ¬InLiteral text
  balanced : nesting text = 0
  opened {front : List Char} : front <+: text → 0 ≤ nesting front
  shallow {front : List Char} : front <+: text → nesting front < 2 ^ 31
  enclosed {front : List Char} : front ++ [','] <+: text → InLiteral front ∨ 0 < nesting front

theorem isEntry_iff : IsEntry text ↔
    text ≠ [] ∧ trim text = text ∧ ¬InLiteral text ∧ nesting text = 0 ∧
      (∀ front ∈ text.inits, 0 ≤ nesting front ∧ nesting front < 2 ^ 31) ∧
      ∀ front ∈ text.inits, front ++ [','] <+: text → InLiteral front ∨ 0 < nesting front := by
  constructor
  · intro h
    refine ⟨h.ne_nil, h.trim_eq, h.closed, h.balanced, fun front hfront ↦ ?_, fun front _ ↦ h.enclosed⟩
    exact ⟨h.opened ((List.mem_inits _ _).1 hfront), h.shallow ((List.mem_inits _ _).1 hfront)⟩
  · rintro ⟨hne, htrim, hclosed, hbalanced, hcounted, henclosed⟩
    have hcounted {front : List Char} (hfront : front <+: text) :=
      hcounted front ((List.mem_inits _ _).2 hfront)
    refine ⟨hne, htrim, hclosed, hbalanced, fun hfront ↦ (hcounted hfront).1,
      fun hfront ↦ (hcounted hfront).2, fun hfront ↦ henclosed _ ((List.mem_inits _ _).2 ?_) hfront⟩
    exact (List.prefix_append _ _).trans hfront

instance : DecidablePred IsEntry := fun _ ↦ decidable_of_iff _ isEntry_iff.symm

/-- Texts with fewer than 2 ^ 31 characters are shallow. -/
theorem nesting_lt_of_prefix (hfront : front <+: text) (hlength : text.length < 2 ^ 31) :
    nesting front < 2 ^ 31 := by
  have hcount : (outsideLiterals false front).count '(' ≤ (outsideLiterals false front).length :=
    List.count_le_length
  have houtside := length_outsideLiterals_le false front
  have hle := hfront.length_le
  rw [nesting]
  omega

/-- An item of a list with the blanks around it. -/
structure Entry where
  before : List Char
  text : List Char
  behind : List Char
  before_blank : ∀ c ∈ before, isBlank c = true
  behind_blank : ∀ c ∈ behind, isBlank c = true
  isEntry : IsEntry text

namespace Entry

/-- The item as it is written, with the blanks around it. -/
def padded (entry : Entry) : List Char := entry.before ++ entry.text ++ entry.behind

end Entry

end VbaLint.Statement
