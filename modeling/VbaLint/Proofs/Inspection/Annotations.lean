import VbaLint.Inspection.Suppression

/-!
# Snapshots with fewer annotations

Taking annotations out of the modules of a snapshot leaves its names, trees and declarations alone.
Only annotations that name a rule can silence it, so all others can go without a difference to it.
-/

namespace VbaLint

open Statement Tree

namespace Annotation

/-- The annotation silences rules, and `rule` is among those that it names. -/
def names (note : Annotation) (rule : String) : Bool :=
  note.directive.suppressedNames?.any fun listed ↦ namesCover listed rule

theorem names_of_silencesNode {note : Annotation} {node : Nat} {rule : String}
    (h : note.silencesNode node rule) : note.names rule := by
  obtain ⟨directive, target, selection⟩ := note
  cases directive <;> cases target <;> simp_all [silencesNode, names, Directive.suppressedNames?]

theorem names_of_silencesModule {note : Annotation} {rule : String}
    (h : note.silencesModule rule) : note.names rule := by
  obtain ⟨directive, target, selection⟩ := note
  cases directive <;> cases target <;> simp_all [silencesModule, names, Directive.suppressedNames?]

end Annotation

def ModuleSource.keepingNotes (keep : Annotation → Bool) (module : ModuleSource) : ModuleSource :=
  { module with
    parsed := { module.parsed with annotations := module.parsed.annotations.filter keep } }

namespace Snapshot

def keepingNotes (keep : Annotation → Bool) (snapshot : Snapshot) : Snapshot :=
  { snapshot with modules := snapshot.modules.map (·.keepingNotes keep) }

variable {keep : Annotation → Bool} {snapshot : Snapshot}

@[simp]
theorem version_keepingNotes : (snapshot.keepingNotes keep).version = snapshot.version := rfl

theorem keepingNotes_keepingNotes (keep keep' : Annotation → Bool) (snapshot : Snapshot) :
    (snapshot.keepingNotes keep).keepingNotes keep' =
      snapshot.keepingNotes fun note ↦ keep' note && keep note := by
  simp only [keepingNotes, List.map_map]
  congr 1
  apply List.map_congr_left
  intro module _
  simp [ModuleSource.keepingNotes, List.filter_filter]

theorem module?_keepingNotes (name : ModuleName) :
    (snapshot.keepingNotes keep).module? name =
      (snapshot.module? name).map (·.keepingNotes keep) := by
  simp only [module?, keepingNotes, List.find?_map]
  rfl

@[simp]
theorem tree?_keepingNotes (name : ModuleName) :
    (snapshot.keepingNotes keep).tree? name = snapshot.tree? name := by
  rw [tree?, module?_keepingNotes, Option.map_map]
  rfl

@[simp]
theorem node?_keepingNotes (name : ModuleName) (node : Nat) :
    (snapshot.keepingNotes keep).node? name node = snapshot.node? name node := by
  rw [node?, tree?_keepingNotes, node?]

@[simp]
theorem containsNode_keepingNotes (name : ModuleName) (node : Nat) :
    (snapshot.keepingNotes keep).containsNode name node = snapshot.containsNode name node := by
  rw [containsNode, node?_keepingNotes, containsNode]

@[simp]
theorem declaration?_keepingNotes (id : Nat) :
    (snapshot.keepingNotes keep).declaration? id = snapshot.declaration? id := rfl

/-- A snapshot can be rid of annotations before or after it is put together. -/
theorem ofModules_keepingNotes (version : Nat) (project : String) (modules : List ModuleSource)
    (keep : Annotation → Bool) :
    ofModules version project (modules.map (·.keepingNotes keep)) =
      (ofModules version project modules).keepingNotes keep := by
  have hordered := foldl_insertModule_map (f := (·.keepingNotes keep)) (fun _ ↦ rfl) modules []
  rw [List.map_nil] at hordered
  simp only [ofModules, keepingNotes]
  rw [hordered, List.map_map]
  rfl

/-- A rule is silenced by the annotations that name it and by no others. -/
theorem suppressingScope?_keepingNotes {rule : String} (h : ∀ note, note.names rule → keep note)
    (module : ModuleName) (node : Nat) :
    (snapshot.keepingNotes keep).suppressingScope? module node rule =
      snapshot.suppressingScope? module node rule := by
  have hnode (notes : List Annotation) (id : Nat) :
      (notes.filter keep).any (·.silencesNode id rule) = notes.any (·.silencesNode id rule) := by
    rw [List.any_filter]
    congr 1
    funext note
    cases hsilences : note.silencesNode id rule with
    | false => exact Bool.and_false _
    | true => rw [h note (note.names_of_silencesNode hsilences), Bool.and_true]
  have hmodule (notes : List Annotation) :
      (notes.filter keep).any (·.silencesModule rule) = notes.any (·.silencesModule rule) := by
    rw [List.any_filter]
    congr 1
    funext note
    cases hsilences : note.silencesModule rule with
    | false => exact Bool.and_false _
    | true => rw [h note (note.names_of_silencesModule hsilences), Bool.and_true]
  rw [suppressingScope?, suppressingScope?, module?_keepingNotes]
  cases snapshot.module? module with
  | none => rfl
  | some source =>
    have hfind (ids : List Nat) :
        ids.find? (fun id ↦
            (source.keepingNotes keep).parsed.annotations.any (·.silencesNode id rule)) =
          ids.find? fun id ↦ source.parsed.annotations.any (·.silencesNode id rule) := by
      congr 1
      funext id
      exact hnode source.parsed.annotations id
    have hany : (source.keepingNotes keep).parsed.annotations.any (·.silencesModule rule) =
        source.parsed.annotations.any (·.silencesModule rule) :=
      hmodule source.parsed.annotations
    rw [Option.map_some]
    dsimp only [Option.bind_eq_bind, Option.bind_some]
    rw [hfind, hany]
    rfl

/-- Annotations that name no inspection of a rule may be left out for it. -/
theorem isIgnoring_keepingNotes {rule : String} (h : ∀ note, note.names rule → keep note)
    (module : ModuleName) (node : Nat) :
    (snapshot.keepingNotes keep).isIgnoring module node rule =
      snapshot.isIgnoring module node rule := by
  rw [isIgnoring, suppressingScope?_keepingNotes h, isIgnoring]

abbrev bare (snapshot : Snapshot) : Snapshot := snapshot.keepingNotes fun _ ↦ false

/-- Without annotations it does not matter which of them were kept. -/
theorem bare_keepingNotes : (snapshot.keepingNotes keep).bare = snapshot.bare := by
  rw [bare, keepingNotes_keepingNotes, bare]
  rfl

/-- Nothing is silenced without annotations. -/
@[simp]
theorem isIgnoring_bare (module : ModuleName) (node : Nat) (rule : String) :
    snapshot.bare.isIgnoring module node rule = false := by
  have hscope : snapshot.bare.suppressingScope? module node rule = none := by
    rw [suppressingScope?, module?_keepingNotes]
    cases snapshot.module? module with
    | none => rfl
    | some source =>
      have hnotes : (source.keepingNotes fun _ ↦ false).parsed.annotations = [] :=
        List.filter_eq_nil_iff.2 fun _ _ ↦ Bool.false_ne_true
      have hfind (ids : List Nat) :
          ids.find? (fun id ↦ ([] : List Annotation).any (·.silencesNode id rule)) = none :=
        List.find?_eq_none.2 fun _ _ ↦ Bool.false_ne_true
      rw [Option.map_some]
      dsimp only [Option.bind_eq_bind, Option.bind_some]
      rw [hnotes, hfind]
      exact Option.bind_fun_none _
  rw [isIgnoring, hscope, Option.isSome_none]

end Snapshot

end VbaLint
