import VbaLint.Source.Selection
import VbaLint.Statement.Directive

/-!
# Annotations

A directive together with what it applies to and where its comment is written.
-/

namespace VbaLint

open Source Statement

inductive AnnotationTarget where
  | node (id : Nat)
  | module
  deriving DecidableEq, Repr

/-- A directive that has found its target. -/
structure Annotation where
  directive : Directive
  target : AnnotationTarget
  /-- The place of the comment. -/
  selection : Selection
  deriving DecidableEq, Repr

end VbaLint
