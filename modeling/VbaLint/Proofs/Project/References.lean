import VbaLint.Proofs.Project.Navigation

/-!
# The references of a snapshot

In a snapshot that was read no place is on record twice, be it with one declaration or with two. Each
reference stands at an identifier of a module of the snapshot.
-/

namespace VbaLint

open Source Text Tree

def Reference.place (reference : Reference) : ModuleName × Nat := (reference.module, reference.node)

section References

variable {modules : List ScopedModule} (hnames : (modules.map (·.name)).Nodup)
include hnames

/-- Each node makes one reference at most. -/
theorem nodup_places_referencesOf (scopes : Scopes) :
    ((referencesOf scopes modules).map Reference.place).Nodup := by
  have hplaces (module : ScopedModule) {place : ModuleName × Nat}
      (h : place ∈ (module.tree.preorder.filterMap (referenceAt? scopes module)).map Reference.place) :
      place.1 = module.name := by
    obtain ⟨reference, hreference, rfl⟩ := List.mem_map.1 h
    obtain ⟨id, -, hmade⟩ := List.mem_filterMap.1 hreference
    exact (place_of_referenceAt? hmade).1
  rw [referencesOf, List.map_flatMap, List.nodup_flatMap]
  constructor
  · intro module _
    rw [List.map_filterMap]
    refine module.tree.nodup_preorder.filterMap ?_
    intro left right place hleft hright
    obtain ⟨reference, hmade, rfl⟩ := Option.map_eq_some_iff.1 hleft
    obtain ⟨other, hother, hplace⟩ := Option.map_eq_some_iff.1 hright
    rw [← (place_of_referenceAt? hmade).2, ← (place_of_referenceAt? hother).2]
    exact (congrArg Prod.snd hplace).symm
  · refine (List.pairwise_map.1 hnames).imp ?_
    intro left right hne place hleft hright
    exact hne ((hplaces left hleft).symm.trans (hplaces right hright))

/-- No place is on record with two declarations, nor twice with one. -/
theorem nodup_places_bindNames :
    ((bindNames modules).toList.flatMap fun declaration ↦
      declaration.references.toList.map Reference.place).Nodup := by
  let listed := referencesOf (Declaring.ofModules modules).scopes modules
  have hlisted : (listed.map Reference.place).Nodup := nodup_places_referencesOf hnames _
  have hknown (id : Nat) (declaration : Declaration)
      (hat : (bindNames modules)[id]? = some declaration) :
      declaration.references.toList = listed.filter (·.declaration == id) := by
    rw [getElem?_bindNames hnames] at hat
    obtain ⟨bare, -, rfl⟩ := Option.map_eq_some_iff.1 hat
    rfl
  rw [List.nodup_flatMap]
  constructor
  · intro declaration hdeclaration
    obtain ⟨id, hat⟩ := Array.mem_iff_getElem?.1 (Array.mem_toList_iff.1 hdeclaration)
    rw [hknown id declaration hat]
    exact hlisted.sublist (List.filter_sublist.map _)
  · rw [List.pairwise_iff_getElem]
    intro left right hleft hright hlt place hfirst hsecond
    have hat (id : Nat) (hid : id < (bindNames modules).toList.length) :
        (bindNames modules)[id]? = some (bindNames modules).toList[id] := by
      rw [← Array.getElem?_toList, List.getElem?_eq_getElem hid]
    obtain ⟨reference, hreference, hplace⟩ := List.mem_map.1 hfirst
    obtain ⟨other, hother, hsame⟩ := List.mem_map.1 hsecond
    rw [hknown left _ (hat left hleft)] at hreference
    rw [hknown right _ (hat right hright)] at hother
    obtain ⟨hmade, hnamed⟩ := List.mem_filter.1 hreference
    obtain ⟨hmade', hnamed'⟩ := List.mem_filter.1 hother
    -- References at one place are the same, and so name the same declaration.
    have heq := List.inj_on_of_nodup_map hlisted hmade hmade' (hplace.trans hsame.symm)
    rw [beq_iff_eq] at hnamed hnamed'
    rw [heq, hnamed'] at hnamed
    exact Nat.ne_of_gt hlt hnamed

end References

/-- What a name stands for has this name. -/
theorem name_of_visible? {modules : List ScopedModule} {declarations : Array Declaration}
    {module : ModuleName} {procedure : Option Nat} {name : String} {target : Nat}
    (h : visible? modules declarations module procedure name = some target) :
    ∃ declaration, declarations[target]? = some declaration ∧
      lowerAsciiString declaration.name = lowerAsciiString name := by
  have hfirst (scope : Scope) (hfound : firstIn? modules declarations scope name = some target) :
      ∃ declaration, declarations[target]? = some declaration ∧
        lowerAsciiString declaration.name = lowerAsciiString name := by
    obtain ⟨hlt, hfits, -⟩ := Array.findIdx?_eq_some_iff_getElem.1 hfound
    rw [Bool.and_eq_true, beq_iff_eq] at hfits
    exact ⟨declarations[target], Array.getElem?_eq_getElem hlt, hfits.1⟩
  rcases Option.or_eq_some_iff.1 h with hprocedure | ⟨-, h⟩
  · obtain ⟨node, -, hfound⟩ := Option.bind_eq_some_iff.1 hprocedure
    exact hfirst _ hfound
  rcases Option.or_eq_some_iff.1 h with hmodule | ⟨-, hproject⟩
  · exact hfirst _ hmodule
  · exact hfirst _ hproject

/-- What stands below the node of an assignment is assigned. -/
theorem ScopedModule.isAssignment_referenceTo (module : ScopedModule) {id : Nat}
    {above : Option NodeKind} (habove : (module.tree.parent? id).bind module.tree.kind? = above)
    (node : Node) (target : Nat) : (module.referenceTo id node target).isAssignment =
      (above == some .letStmt || above == some .setStmt) := by
  subst habove
  rfl

/-- The module as one whose names are bound. -/
def ModuleSource.scoped (source : ModuleSource) : ScopedModule :=
  ⟨source.name, source.type, source.parsed.tree⟩

namespace Snapshot

/-- Of all references the given one is on record at its place, once and with its declaration. -/
def Records (snapshot : Snapshot) (reference : Reference) : Prop :=
  ∀ declaration ∈ snapshot.declarations,
    declaration.references.toList.filter (·.place == reference.place) =
      if declaration.id = reference.declaration then [reference] else []

/-- The declaration is the first one of the name that the scope knows. -/
structure IsFirstNamed (snapshot : Snapshot) (scope : Scope) (name : String)
    (first : Declaration) : Prop where
  mem : first ∈ snapshot.declarations
  known : isKnownIn snapshot.scopedModules first scope = true
  named : lowerAsciiString first.name = lowerAsciiString name
  id_le {other : Declaration} : other ∈ snapshot.declarations →
    isKnownIn snapshot.scopedModules other scope = true →
      lowerAsciiString other.name = lowerAsciiString name → first.id ≤ other.id

/-- A declaration of the name that the scope knows is the first one if none comes before it. -/
theorem IsFirstNamed.id_eq_iff {snapshot : Snapshot} {scope : Scope} {name : String}
    {first declaration : Declaration} (h : snapshot.IsFirstNamed scope name first)
    (hmem : declaration ∈ snapshot.declarations)
    (hknown : isKnownIn snapshot.scopedModules declaration scope = true)
    (hname : lowerAsciiString declaration.name = lowerAsciiString name) :
    first.id = declaration.id ↔ ∀ other ∈ snapshot.declarations,
      isKnownIn snapshot.scopedModules other scope = true →
        lowerAsciiString other.name = lowerAsciiString name → declaration.id ≤ other.id := by
  constructor
  · intro hsame other hother hothers hnamed
    rw [← hsame]
    exact h.id_le hother hothers hnamed
  · intro hleast
    exact Nat.le_antisymm (h.id_le hmem hknown hname) (hleast first h.mem h.known h.named)

namespace IsRead

variable {snapshot : Snapshot} (h : snapshot.IsRead)
include h

/-- No place of the snapshot is on record twice. -/
theorem nodup_places : (snapshot.declarations.toList.flatMap fun declaration ↦
    declaration.references.toList.map Reference.place).Nodup := by
  rw [h.declarations_eq]
  exact nodup_places_bindNames h.nodup_scopedModules

theorem getElem?_id {declaration : Declaration} (hmem : declaration ∈ snapshot.declarations) :
    snapshot.declarations[declaration.id]? = some declaration := by
  obtain ⟨id, hat⟩ := Array.mem_iff_getElem?.1 hmem
  rw [h.id_eq_of_declaration? hat]
  exact hat

/-- What is on record with a declaration is an identifier in use with the name of the declaration. -/
theorem exists_use {declaration : Declaration} (hmem : declaration ∈ snapshot.declarations)
    {reference : Reference} (hreference : reference ∈ declaration.references) :
    ∃ source ∈ snapshot.modules, ∃ node, source.scoped.Uses reference.node node ∧
      reference = source.scoped.referenceTo reference.node node declaration.id ∧
      lowerAsciiString node.text = lowerAsciiString declaration.name := by
  have hat := h.getElem?_id hmem
  rw [show snapshot.declarations = bindNames snapshot.scopedModules from h.declarations_eq] at hat
  obtain ⟨module, hmodule, node, huses, hvisible, hmade⟩ :=
    exists_of_mem_references h.nodup_scopedModules hat hreference
  obtain ⟨source, hsource, rfl⟩ := List.mem_map.1 hmodule
  obtain ⟨found, hfound, hname⟩ := name_of_visible? hvisible
  cases hat.symm.trans hfound
  exact ⟨source, hsource, node, huses, hmade, hname.symm⟩

/-- An identifier in use is on record with the declaration that is visible there. -/
theorem records {source : ModuleSource} (hsource : source ∈ snapshot.modules) {id : Nat}
    {node : Node} (huses : source.scoped.Uses id node) {target : Nat}
    (hvisible : visible? snapshot.scopedModules snapshot.declarations source.name
      (source.parsed.tree.enclosingProcedure? id) node.text = some target) :
    snapshot.Records (source.scoped.referenceTo id node target) := by
  intro declaration hdeclaration
  have hdeclarations : snapshot.declarations = bindNames snapshot.scopedModules := h.declarations_eq
  have hat := h.getElem?_id hdeclaration
  rw [hdeclarations] at hat hvisible
  have hscoped : source.scoped ∈ snapshot.scopedModules := List.mem_map.2 ⟨source, hsource, rfl⟩
  have hplaced : source.scoped.visibleAt? snapshot.scopedModules id node = some target := hvisible
  refine (filter_references h.nodup_scopedModules hscoped huses hat).trans ?_
  rw [hplaced]
  by_cases hown : declaration.id = target
  · rw [if_pos (congrArg some hown.symm), hown]
    exact (if_pos rfl).symm
  · rw [if_neg fun heq ↦ hown (Option.some.inj heq).symm]
    exact (if_neg hown).symm

/-- Looking up the name of a declaration that the scope knows finds the first one of this name. -/
theorem exists_isFirstNamed {scope : Scope} {declaration : Declaration}
    (hmem : declaration ∈ snapshot.declarations)
    (hknown : isKnownIn snapshot.scopedModules declaration scope = true) :
    ∃ first, snapshot.IsFirstNamed scope declaration.name first ∧
      firstIn? snapshot.scopedModules snapshot.declarations scope declaration.name =
        some first.id := by
  let fits (other : Declaration) : Bool :=
    lowerAsciiString other.name == lowerAsciiString declaration.name &&
      isKnownIn snapshot.scopedModules other scope
  have hfits {other : Declaration} : fits other = true ↔
      lowerAsciiString other.name = lowerAsciiString declaration.name ∧
        isKnownIn snapshot.scopedModules other scope = true := by
    rw [Bool.and_eq_true, beq_iff_eq]
  have hsome : (snapshot.declarations.findIdx? fits).isSome = true := by
    rw [Array.findIdx?_isSome, Array.any_eq_true']
    exact ⟨declaration, hmem, hfits.2 ⟨rfl, hknown⟩⟩
  obtain ⟨id, hfound⟩ := Option.isSome_iff_exists.1 hsome
  obtain ⟨hlt, hfirst, hbefore⟩ := Array.findIdx?_eq_some_iff_getElem.1 hfound
  have hat : snapshot.declarations[id]? = some snapshot.declarations[id] :=
    Array.getElem?_eq_getElem hlt
  have hid : snapshot.declarations[id].id = id := h.id_eq_of_declaration? hat
  refine ⟨snapshot.declarations[id], ⟨Array.getElem_mem hlt, (hfits.1 hfirst).2, (hfits.1 hfirst).1,
    fun {other} hother hknown hname ↦ ?_⟩, hfound.trans (congrArg some hid.symm)⟩
  rw [hid]
  by_contra hless
  obtain ⟨hother', hsame⟩ := Array.getElem?_eq_some_iff.1 (h.getElem?_id hother)
  apply hbefore other.id (Nat.lt_of_not_le hless)
  rw [hsame]
  exact hfits.2 ⟨hname, hknown⟩

end IsRead

end Snapshot

section Singleton

variable (project : String) (text : ModuleText) (version : Nat)

theorem Assembly.modules_build_singleton :
    ((ofModules project [text]).build version).modules = [text.source project] := by
  rw [build_eq_snapshot (nodup_components project [text])]
  rfl

theorem Assembly.mem_modules_build_singleton :
    text.source project ∈ ((ofModules project [text]).build version).modules := by
  rw [modules_build_singleton]
  exact List.mem_singleton_self _

/-- In the project of one module the names of one module are bound. -/
theorem Assembly.scopedModules_build_singleton :
    ((ofModules project [text]).build version).scopedModules = [(text.source project).scoped] := by
  rw [Snapshot.scopedModules, modules_build_singleton]
  rfl

/-- The declarations of a project of one module, before anything refers to them. -/
theorem Assembly.declarations_build_singleton :
    ((ofModules project [text]).build version).declarations.map (·.withoutReferences) =
      (Declaring.ofModules [(text.source project).scoped]).declarations := by
  have hread := isRead_build project [text] version
  have hdeclarations := hread.declarations_eq
  rw [← Snapshot.scopedModules] at hdeclarations
  rw [hdeclarations, map_withoutReferences_bindNames hread.nodup_scopedModules,
    scopedModules_build_singleton]

variable {P : Declaration → Prop} (hkept : ∀ declaration, P declaration.withoutReferences → P declaration)
include hkept

/-- In the project of one module a declaration is found among those of the module. -/
theorem Assembly.exists_declaration_build_singleton
    (h : ∃ bare ∈ (Declaring.ofModules [(text.source project).scoped]).declarations, P bare) :
    ∃ declaration ∈ ((ofModules project [text]).build version).declarations, P declaration := by
  rw [← declarations_build_singleton project text version] at h
  obtain ⟨bare, hmem, hbare⟩ := h
  obtain ⟨declaration, hdeclaration, rfl⟩ := Array.mem_map.1 hmem
  exact ⟨declaration, hdeclaration, hkept declaration hbare⟩

/-- In the project of one module all declarations are those of the module. -/
theorem Assembly.forall_declaration_build_singleton
    (h : ∀ bare ∈ (Declaring.ofModules [(text.source project).scoped]).declarations, P bare) :
    ∀ declaration ∈ ((ofModules project [text]).build version).declarations, P declaration := by
  rw [← declarations_build_singleton project text version] at h
  intro declaration hdeclaration
  exact hkept declaration (h _ (Array.mem_map.2 ⟨declaration, hdeclaration, rfl⟩))

end Singleton

end VbaLint
