import VbaLint.Inspection.Suppression
import VbaLint.Proofs.Tree.Enclosing
import VbaLint.Proofs.Tree.Visits

/-!
# The scope that silences a rule

A rule is silenced at a node by the innermost annotated place that names it: the node itself, the nodes
around it, the module. What annotations name is stated by the letters of the names, and innermost by the
enclosing nodes, without regard to how annotations are searched.
-/

namespace VbaLint

open Statement Text Tree

/-! ## Names of rules -/

/-- Names of rules are compared by their keys: without outer blanks, in lower case, and without a
final `inspection` that is not the whole name. -/
inductive HasKey (name : String) : List Char → Prop
  | stem {stem : List Char} (hstem : stem ≠ [])
      (hname : lowerAscii (trim name.toList) = stem ++ "inspection".toList) : HasKey name stem
  | whole (hname : ∀ stem, lowerAscii (trim name.toList) = stem ++ "inspection".toList → stem = []) :
      HasKey name (lowerAscii (trim name.toList))

theorem dropProperSuffix_append {stem ending : List Char} (hstem : stem ≠ []) :
    dropProperSuffix ending (stem ++ ending) = stem := by
  have hsuffix : ending.isSuffixOf (stem ++ ending) = true :=
    List.isSuffixOf_iff_suffix.2 (List.suffix_append stem ending)
  have hlength := List.length_pos_iff.2 hstem
  simp [dropProperSuffix, hsuffix, hlength]

theorem dropProperSuffix_eq_self {ending text : List Char}
    (htext : ∀ stem, text = stem ++ ending → stem = []) : dropProperSuffix ending text = text := by
  rw [dropProperSuffix, if_neg]
  intro hboth
  obtain ⟨hsuffix, hlength⟩ := Bool.and_eq_true_iff.1 hboth
  obtain ⟨stem, rfl⟩ := List.isSuffixOf_iff_suffix.1 hsuffix
  simp [htext stem rfl] at hlength

theorem ruleKey_eq_iff {name : String} {key : List Char} : ruleKey name = key ↔ HasKey name key := by
  have hkey {key : List Char} (h : HasKey name key) : ruleKey name = key := by
    cases h with
    | stem hstem hname => rw [ruleKey, hname, dropProperSuffix_append hstem]
    | whole hname => rw [ruleKey, dropProperSuffix_eq_self hname]
  refine ⟨?_, hkey⟩
  rintro rfl
  by_cases hstem : ∃ stem ≠ [], lowerAscii (trim name.toList) = stem ++ "inspection".toList
  · obtain ⟨stem, hstem, hname⟩ := hstem
    have h : HasKey name stem := .stem hstem hname
    exact hkey h ▸ h
  · have h : HasKey name (lowerAscii (trim name.toList)) :=
      .whole fun stem hname ↦ by_contra fun hne ↦ hstem ⟨stem, hne, hname⟩
    exact hkey h ▸ h

/-- An annotation that lists `names` covers the rule if it lists none or one with the key of the
rule. -/
def Covers (names : List String) (rule : String) : Prop :=
  names = [] ∨ ∃ name ∈ names, ∃ key, HasKey name key ∧ HasKey rule key

theorem namesCover_iff {names : List String} {rule : String} :
    namesCover names rule = true ↔ Covers names rule := by
  simp only [namesCover, Covers, ← ruleKey_eq_iff, Bool.or_eq_true, List.isEmpty_iff, List.any_eq_true,
    beq_iff_eq, exists_eq_left', eq_comm (a := ruleKey rule)]

/-! ## Annotations -/

namespace Annotation

/-- The annotation is an `Ignore` at the node and covers the rule. -/
def CoversAt (note : Annotation) (node : Nat) (rule : String) : Prop :=
  ∃ names, note.directive = .ignore names ∧ note.target = .node node ∧ Covers names rule

/-- The annotation is an `IgnoreModule`, or an `Ignore` for the module, and covers the rule. -/
def CoversModule (note : Annotation) (rule : String) : Prop :=
  ∃ names, (note.directive = .ignoreModule names ∨
    note.directive = .ignore names ∧ note.target = .module) ∧ Covers names rule

variable {note : Annotation} {rule : String}

theorem silencesNode_iff {node : Nat} :
    note.silencesNode node rule = true ↔ note.CoversAt node rule := by
  obtain ⟨directive, target, selection⟩ := note
  cases directive <;> cases target <;> simp [silencesNode, CoversAt, namesCover_iff]

theorem silencesModule_iff : note.silencesModule rule = true ↔ note.CoversModule rule := by
  obtain ⟨directive, target, selection⟩ := note
  cases directive <;> cases target <;> simp [silencesModule, CoversModule, namesCover_iff]

end Annotation

/-! ## Scopes -/

namespace ModuleSource

/-- The node has an annotation of its own that covers the rule. -/
def Marks (source : ModuleSource) (rule : String) (node : Nat) : Prop :=
  ∃ note ∈ source.parsed.annotations, note.CoversAt node rule

/-- The module as a whole has an annotation that covers the rule. -/
def MarksAll (source : ModuleSource) (rule : String) : Prop :=
  ∃ note ∈ source.parsed.annotations, note.CoversModule rule

variable {source : ModuleSource} {rule : String}

theorem any_silencesNode_iff {node : Nat} :
    source.parsed.annotations.any (·.silencesNode node rule) = true ↔ source.Marks rule node := by
  simp only [List.any_eq_true, Annotation.silencesNode_iff, Marks]

theorem any_silencesModule_iff :
    source.parsed.annotations.any (·.silencesModule rule) = true ↔ source.MarksAll rule := by
  simp only [List.any_eq_true, Annotation.silencesModule_iff, MarksAll]

end ModuleSource

namespace Snapshot

variable {snapshot : Snapshot} {module : ModuleName} {node : Nat} {rule : String}
  {scope : Option SuppressionScope} {source : ModuleSource}

/-- The scope in which the rule is silenced at the node; `none` stands for no scope at all. -/
inductive SilencedIn (snapshot : Snapshot) (module : ModuleName) (node : Nat) (rule : String) :
    Option SuppressionScope → Prop
  /-- Nothing is silenced in a module that the snapshot does not have. -/
  | unknownModule (hmodule : snapshot.module? module = none) :
      SilencedIn snapshot module node rule none
  /-- Nothing is silenced at a node that the module does not have. -/
  | unknownNode {source : ModuleSource} (hsource : snapshot.module? module = some source)
      (hnode : source.parsed.tree.size ≤ node) : SilencedIn snapshot module node rule none
  /-- The innermost marked node decides, whatever marks the module. -/
  | atNode {source : ModuleSource} {nearest : Nat} {kind : NodeKind}
      (hsource : snapshot.module? module = some source) (hnode : node < source.parsed.tree.size)
      (hnearest : source.parsed.tree.IsNearest (source.Marks rule) node nearest)
      (hkind : source.parsed.tree.kind? nearest = some kind) :
      SilencedIn snapshot module node rule (some (.ofKind kind))
  /-- If no node around is marked, the module decides. -/
  | inModule {source : ModuleSource} (hsource : snapshot.module? module = some source)
      (hnode : node < source.parsed.tree.size)
      (hunmarked : ∀ above, source.parsed.tree.Encloses above node → ¬source.Marks rule above)
      (hall : source.MarksAll rule) : SilencedIn snapshot module node rule (some .module)
  /-- If the module is not marked either, nothing is silenced. -/
  | nowhere {source : ModuleSource} (hsource : snapshot.module? module = some source)
      (hnode : node < source.parsed.tree.size)
      (hunmarked : ∀ above, source.parsed.tree.Encloses above node → ¬source.Marks rule above)
      (hall : ¬source.MarksAll rule) : SilencedIn snapshot module node rule none

/-- The first marked node on the way up. -/
def markedAt? (source : ModuleSource) (node : Nat) (rule : String) : Option Nat :=
  (node :: source.parsed.tree.ancestors node).find? fun id ↦
    source.parsed.annotations.any (·.silencesNode id rule)

theorem markedAt?_eq_some_iff {nearest : Nat} : markedAt? source node rule = some nearest ↔
    source.parsed.tree.IsNearest (source.Marks rule) node nearest := by
  rw [markedAt?, SyntaxTree.find?_eq_some_iff_isNearest]
  simp only [ModuleSource.any_silencesNode_iff]

theorem markedAt?_eq_none_iff : markedAt? source node rule = none ↔
    ∀ above, source.parsed.tree.Encloses above node → ¬source.Marks rule above := by
  simp only [markedAt?, List.find?_eq_none, SyntaxTree.mem_ancestors_iff_encloses,
    ModuleSource.any_silencesNode_iff]

theorem suppressingScope?_of_unknown_module (hmodule : snapshot.module? module = none) :
    snapshot.suppressingScope? module node rule = none := by
  rw [suppressingScope?, hmodule]
  rfl

theorem suppressingScope?_of_module (hsource : snapshot.module? module = some source) :
    snapshot.suppressingScope? module node rule =
      if node < source.parsed.tree.size then
        match markedAt? source node rule with
        | some nearest => (source.parsed.tree.kind? nearest).map .ofKind
        | none => if source.parsed.annotations.any (·.silencesModule rule) then some .module else none
      else none := by
  rw [suppressingScope?, hsource, markedAt?]
  by_cases hnode : node < source.parsed.tree.size
  · simp only [Option.bind_eq_bind, Option.bind_some, guard, hnode, if_true]
    rfl
  · simp only [Option.bind_eq_bind, Option.bind_some, guard, hnode, if_false]
    rfl

theorem SilencedIn.suppressingScope?_eq (h : snapshot.SilencedIn module node rule scope) :
    snapshot.suppressingScope? module node rule = scope := by
  cases h with
  | unknownModule hmodule => exact suppressingScope?_of_unknown_module hmodule
  | unknownNode hsource hnode =>
    rw [suppressingScope?_of_module hsource, if_neg (Nat.not_lt.2 hnode)]
  | atNode hsource hnode hnearest hkind =>
    rw [suppressingScope?_of_module hsource, if_pos hnode, markedAt?_eq_some_iff.2 hnearest]
    exact congrArg (Option.map SuppressionScope.ofKind) hkind
  | inModule hsource hnode hunmarked hall =>
    rw [suppressingScope?_of_module hsource, if_pos hnode, markedAt?_eq_none_iff.2 hunmarked,
      if_pos (ModuleSource.any_silencesModule_iff.2 hall)]
  | nowhere hsource hnode hunmarked hall =>
    rw [suppressingScope?_of_module hsource, if_pos hnode, markedAt?_eq_none_iff.2 hunmarked,
      if_neg (ModuleSource.any_silencesModule_iff.not.2 hall)]

theorem silencedIn_suppressingScope? :
    snapshot.SilencedIn module node rule (snapshot.suppressingScope? module node rule) := by
  cases hsource : snapshot.module? module with
  | none =>
    rw [suppressingScope?_of_unknown_module hsource]
    exact .unknownModule hsource
  | some source =>
    rw [suppressingScope?_of_module hsource]
    by_cases hnode : node < source.parsed.tree.size
    · rw [if_pos hnode]
      cases hmarked : markedAt? source node rule with
      | some nearest =>
        have hnearest := markedAt?_eq_some_iff.1 hmarked
        dsimp only
        have hlt : nearest < source.parsed.tree.size := Nat.lt_of_le_of_lt hnearest.encloses.le hnode
        obtain ⟨kind, hkind⟩ := SyntaxTree.exists_kind?_of_lt hlt
        rw [hkind]
        exact .atNode hsource hnode hnearest hkind
      | none =>
        have hunmarked := markedAt?_eq_none_iff.1 hmarked
        dsimp only
        split
        · next hall => exact .inModule hsource hnode hunmarked (ModuleSource.any_silencesModule_iff.1 hall)
        · next hall =>
          exact .nowhere hsource hnode hunmarked (ModuleSource.any_silencesModule_iff.not.1 hall)
    · rw [if_neg hnode]
      exact .unknownNode hsource (Nat.not_lt.1 hnode)

/-- The scope that silences a rule is the only one that meets the description. -/
theorem suppressingScope?_eq_iff :
    snapshot.suppressingScope? module node rule = scope ↔ snapshot.SilencedIn module node rule scope :=
  ⟨fun h ↦ h ▸ silencedIn_suppressingScope?, SilencedIn.suppressingScope?_eq⟩

/-- A rule is silenced where the node, something around it or the module is marked. -/
theorem isIgnoring_iff : snapshot.isIgnoring module node rule = true ↔
    ∃ source, snapshot.module? module = some source ∧ node < source.parsed.tree.size ∧
      ((∃ above, source.parsed.tree.Encloses above node ∧ source.Marks rule above) ∨
        source.MarksAll rule) := by
  rw [isIgnoring, Option.isSome_iff_exists]
  simp only [suppressingScope?_eq_iff]
  constructor
  · rintro ⟨scope, h⟩
    cases h with
    | atNode hsource hnode hnearest _ =>
      exact ⟨_, hsource, hnode, .inl ⟨_, hnearest.encloses, hnearest.holds⟩⟩
    | inModule hsource hnode _ hall => exact ⟨_, hsource, hnode, .inr hall⟩
  · rintro ⟨source, hsource, hnode, hmarked⟩
    cases hscope : snapshot.suppressingScope? module node rule with
    | some scope => exact ⟨scope, suppressingScope?_eq_iff.1 hscope⟩
    | none =>
      exfalso
      cases suppressingScope?_eq_iff.1 hscope with
      | unknownModule hmodule =>
        rw [hmodule] at hsource
        cases hsource
      | unknownNode hsource' hsize =>
        cases hsource.symm.trans hsource'
        exact Nat.not_lt.2 hsize hnode
      | nowhere hsource' _ hunmarked hall =>
        cases hsource.symm.trans hsource'
        rcases hmarked with ⟨above, habove, hmarks⟩ | hall'
        · exact hunmarked above habove hmarks
        · exact hall hall'

/-! ## More annotations -/

/-- The modules of `more` are those of the snapshot with the same trees; they keep their annotations
and may have others besides. -/
def IsAnnotatedFurtherBy (snapshot more : Snapshot) : Prop :=
  List.Forall₂ (fun source source' ↦ source'.name = source.name ∧
    source'.parsed.tree = source.parsed.tree ∧
      source.parsed.annotations ⊆ source'.parsed.annotations) snapshot.modules more.modules

theorem IsAnnotatedFurtherBy.exists_module? {more : Snapshot} (h : snapshot.IsAnnotatedFurtherBy more)
    (hsource : snapshot.module? module = some source) :
    ∃ source', more.module? module = some source' ∧ source'.parsed.tree = source.parsed.tree ∧
      source.parsed.annotations ⊆ source'.parsed.annotations := by
  unfold IsAnnotatedFurtherBy at h
  unfold module? at hsource ⊢
  generalize snapshot.modules = modules at h hsource
  generalize more.modules = modules' at h
  induction h with
  | nil => cases hsource
  | @cons first first' rest rest' hfirst _ ih =>
    obtain ⟨hname, htree, hnotes⟩ := hfirst
    rw [List.find?_cons] at hsource ⊢
    rw [hname]
    cases hat : first.name == module with
    | true =>
      rw [hat] at hsource
      cases hsource
      exact ⟨first', rfl, htree, hnotes⟩
    | false =>
      rw [hat] at hsource
      exact ih hsource

/-- Further annotations never let a silenced rule speak. -/
theorem IsAnnotatedFurtherBy.isIgnoring {more : Snapshot} (h : snapshot.IsAnnotatedFurtherBy more)
    (hignoring : snapshot.isIgnoring module node rule = true) :
    more.isIgnoring module node rule = true := by
  obtain ⟨source, hsource, hnode, hmarked⟩ := isIgnoring_iff.1 hignoring
  obtain ⟨source', hsource', htree, hnotes⟩ := h.exists_module? hsource
  refine isIgnoring_iff.2 ⟨source', hsource', htree ▸ hnode, ?_⟩
  rw [htree]
  rcases hmarked with ⟨above, habove, note, hnote, hcovers⟩ | ⟨note, hnote, hcovers⟩
  · exact .inl ⟨above, habove, note, hnotes hnote, hcovers⟩
  · exact .inr ⟨note, hnotes hnote, hcovers⟩

end Snapshot

end VbaLint
