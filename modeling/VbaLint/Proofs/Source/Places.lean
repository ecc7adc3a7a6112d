import Mathlib.Data.Prod.Lex
import VbaLint.Source.Line
import VbaLint.Source.Selection

/-!
# Places in a source text

A place is a line and a column, both counted from one. Places are ordered as a text is read, and a range
has a first and a last place.
-/

namespace VbaLint.Source

@[ext]
structure Place where
  line : Nat
  column : Nat
  deriving DecidableEq

namespace Place

variable {p q : Place}

instance : LinearOrder Place :=
  LinearOrder.lift' (fun p ↦ toLex (p.line, p.column)) fun _ _ h ↦
    Place.ext (congrArg (fun p ↦ (ofLex p).1) h) (congrArg (fun p ↦ (ofLex p).2) h)

theorem le_iff : p ≤ q ↔ p.line < q.line ∨ p.line = q.line ∧ p.column ≤ q.column :=
  Prod.Lex.toLex_le_toLex

theorem lt_iff : p < q ↔ p.line < q.line ∨ p.line = q.line ∧ p.column < q.column :=
  Prod.Lex.toLex_lt_toLex

end Place

namespace Selection

def first (selection : Selection) : Place := ⟨selection.startLine, selection.startColumn⟩

def last (selection : Selection) : Place := ⟨selection.endLine, selection.endColumn⟩

/-- The two ranges have a place in common. -/
def Meets (left right : Selection) : Prop :=
  ∃ p, left.first ≤ p ∧ p ≤ left.last ∧ right.first ≤ p ∧ p ≤ right.last

variable {left right : Selection}

/-- A range behind another one does not meet it. -/
theorem not_meets_of_lt (h : left.last < right.first) : ¬left.Meets right := by
  rintro ⟨p, -, hlast, hfirst, -⟩
  exact absurd (hfirst.trans hlast) (not_le.2 h)

/-- Two ranges that end together meet at the beginning of the later one. -/
theorem meets_of_last_eq (hfirst : left.first ≤ right.first) (hlast : left.last = right.last)
    (hright : right.first ≤ right.last) : left.Meets right :=
  ⟨right.first, hfirst, hlast ▸ hright, le_rfl, hright⟩

end Selection

/-- The line of the given number; lines beyond the text are empty. -/
def lineAt (lines : List (List Char)) : Nat → List Char
  | 0 => []
  | number + 1 => lines[number]?.getD []

def charAt (lines : List (List Char)) (p : Place) : Option Char :=
  match p.column with
  | 0 => none
  | column + 1 => (lineAt lines p.line)[column]?

section Line

variable {lines : List (List Char)} {number : Nat} {before behind : List Char} {c : Char}
  (h : lineAt lines number = before ++ behind)
include h

theorem charAt_length_of_getLast? (hc : before.getLast? = some c) :
    charAt lines ⟨number, before.length⟩ = some c := by
  obtain ⟨front, rfl⟩ := List.getLast?_eq_some_iff.1 hc
  rw [List.length_append]
  change (lineAt lines number)[front.length]? = some c
  rw [h, List.append_assoc, List.getElem?_append_right le_rfl, Nat.sub_self]
  rfl

theorem charAt_succ_length_of_head? (hc : behind.head? = some c) :
    charAt lines ⟨number, before.length + 1⟩ = some c := by
  obtain ⟨rest, rfl⟩ := List.head?_eq_some_iff.1 hc
  change (lineAt lines number)[before.length]? = some c
  rw [h, List.getElem?_append_right le_rfl, Nat.sub_self]
  rfl

end Line

end VbaLint.Source
