import VbaLint.Annotation
import VbaLint.Json.Results

/-!
# Annotations as JSON

A directive and a target are records with one key, which tells their form; the target of a whole
module is a bare name.
-/

namespace VbaLint

open Source Statement

namespace Statement.Directive

def toJson : Directive → Json
  | ignore names => .record [("Ignore", .list (names.map .text))]
  | ignoreModule names => .record [("IgnoreModule", .list (names.map .text))]
  | folder text => .record [("Folder", .text text)]
  | description text => .record [("Description", .text text)]

def ofJson? : Json → Option Directive
  | .record [("Ignore", .list names)] => (names.mapM Json.text?).map ignore
  | .record [("IgnoreModule", .list names)] => (names.mapM Json.text?).map ignoreModule
  | .record [("Folder", .text text)] => some (folder text)
  | .record [("Description", .text text)] => some (description text)
  | _ => none

end Statement.Directive

namespace AnnotationTarget

def toJson : AnnotationTarget → Json
  | node id => .record [("Node", .natural id)]
  | module => .text "Module"

def ofJson? : Json → Option AnnotationTarget
  | .text "Module" => some module
  | .record [("Node", id)] => id.index?.map node
  | _ => none

end AnnotationTarget

namespace Annotation

def toJson (note : Annotation) : Json :=
  .record
    [("kind", note.directive.toJson), ("target", note.target.toJson),
      ("selection", note.selection.toJson)]

def ofJson? (value : Json) : Option Annotation := do
  match ← value.fields? ["kind", "target", "selection"] with
  | [directive, target, selection] =>
    return ⟨← Directive.ofJson? directive, ← AnnotationTarget.ofJson? target,
      ← Selection.ofJson? selection⟩
  | _ => none

end Annotation

end VbaLint
