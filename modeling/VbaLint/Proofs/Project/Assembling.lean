import VbaLint.Proofs.Project.Caching

/-!
# From which texts a snapshot is read

Of several texts with one component the last one counts, both when texts are collected and when the
modules of a snapshot are put into the order of their names.
-/

namespace VbaLint

theorem ModuleName.order_eq_iff {left right : ModuleName} : left.order right = .eq ↔ left = right := by
  rw [order, Ordering.then_eq_eq, Std.LawfulEqCmp.compare_eq_iff_eq,
    Std.LawfulEqCmp.compare_eq_iff_eq, ModuleName.mk.injEq]

theorem find?_insertModule (module : ModuleSource) (placed : List ModuleSource)
    (name : ModuleName) :
    (insertModule module placed).find? (·.name == name) =
      if module.name == name then some module else placed.find? (·.name == name) := by
  induction placed with
  | nil =>
    rw [insertModule, List.find?_cons]
    cases module.name == name <;> rfl
  | cons first rest ih =>
    rw [insertModule]
    split
    · rw [List.find?_cons]
      cases module.name == name <;> rfl
    · next heq =>
      rw [List.find?_cons, List.find?_cons, ← ModuleName.order_eq_iff.1 heq]
      cases module.name == name <;> rfl
    · next hgt =>
      rw [List.find?_cons, List.find?_cons, ih]
      cases hmodule : module.name == name with
      | false => rfl
      | true =>
        have hne : (first.name == name) = false := by
          rw [← eq_of_beq hmodule]
          apply beq_false_of_ne
          rintro heq
          rw [ModuleName.order_eq_iff.2 heq.symm] at hgt
          cases hgt
        rw [hne]

/-- The module of a name in a snapshot is the last of that name among those that it was made of. -/
theorem Snapshot.module?_ofModules (version : Nat) (project : String)
    (modules : List ModuleSource) (name : ModuleName) :
    (ofModules version project modules).module? name =
      modules.reverse.find? (·.name == name) := by
  change (modules.foldl (fun placed module ↦ insertModule module placed) []).find?
    (·.name == name) = _
  induction modules using List.reverseRecOn with
  | nil => rfl
  | append_singleton modules module ih =>
    rw [List.foldl_append, List.foldl_cons, List.foldl_nil, find?_insertModule, ih,
      List.reverse_append, List.reverse_singleton, List.singleton_append, List.find?_cons]
    cases module.name == name <;> rfl

/-- The module stands before the other in the order of their names. -/
def ModuleSource.Precedes (left right : ModuleSource) : Prop := left.name.order right.name = .lt

theorem mem_insertModule {module other : ModuleSource} {placed : List ModuleSource}
    (h : other ∈ insertModule module placed) : other = module ∨ other ∈ placed := by
  induction placed with
  | nil => exact .inl (List.mem_singleton.1 h)
  | cons first rest ih =>
    rw [insertModule] at h
    split at h
    · exact List.mem_cons.1 h
    · exact (List.mem_cons.1 h).imp_right (List.mem_cons_of_mem first)
    · rcases List.mem_cons.1 h with rfl | h
      · exact .inr List.mem_cons_self
      · exact (ih h).imp_right (List.mem_cons_of_mem first)

instance : Std.TransCmp ModuleName.order :=
  inferInstanceAs
    (Std.TransCmp (compareLex (compareOn ModuleName.project) (compareOn ModuleName.component)))

theorem pairwise_insertModule (module : ModuleSource) {placed : List ModuleSource}
    (h : placed.Pairwise ModuleSource.Precedes) :
    (insertModule module placed).Pairwise ModuleSource.Precedes := by
  induction h with
  | nil => exact List.pairwise_singleton _ _
  | @cons first rest hfirst hrest ih =>
    rw [insertModule]
    split
    · next hlt =>
      refine .cons ?_ (.cons hfirst hrest)
      intro other hother
      rcases List.mem_cons.1 hother with rfl | hother
      · exact hlt
      · exact Std.TransCmp.lt_trans hlt (hfirst other hother)
    · next heq =>
      refine .cons ?_ hrest
      intro other hother
      rw [ModuleSource.Precedes, ModuleName.order_eq_iff.1 heq]
      exact hfirst other hother
    · next hgt =>
      refine .cons ?_ ih
      intro other hother
      rcases mem_insertModule hother with rfl | hother
      · exact Std.OrientedCmp.gt_iff_lt.1 hgt
      · exact hfirst other hother

/-- The modules of a snapshot stand in the order of their names. -/
theorem Snapshot.pairwise_modules_ofModules (version : Nat) (project : String)
    (modules : List ModuleSource) :
    (ofModules version project modules).modules.Pairwise ModuleSource.Precedes := by
  change (modules.foldl (fun placed module ↦ insertModule module placed) []).Pairwise _
  induction modules using List.reverseRecOn with
  | nil => exact .nil
  | append_singleton modules module ih =>
    rw [List.foldl_append]
    exact pairwise_insertModule module ih

/-- Modules in the order of their names have different names. -/
theorem nodup_names_of_pairwise {modules : List ModuleSource}
    (h : modules.Pairwise ModuleSource.Precedes) : (modules.map (·.name)).Nodup := by
  refine List.pairwise_map.2 (h.imp ?_)
  intro left right hprecedes hsame
  rw [ModuleSource.Precedes, ModuleName.order_eq_iff.2 hsame] at hprecedes
  cases hprecedes

/-- A name finds exactly the module that has it. -/
theorem find?_eq_some_iff_of_pairwise {modules : List ModuleSource}
    (h : modules.Pairwise ModuleSource.Precedes) {name : ModuleName} {source : ModuleSource} :
    modules.find? (·.name == name) = some source ↔ source ∈ modules ∧ source.name = name := by
  constructor
  · intro hfound
    have hname := List.find?_some hfound
    exact ⟨List.mem_of_find?_eq_some hfound, eq_of_beq hname⟩
  · rintro ⟨hsource, rfl⟩
    have hsome : (modules.find? (·.name == source.name)).isSome = true :=
      List.find?_isSome.2 ⟨source, hsource, by simp⟩
    obtain ⟨found, hfound⟩ := Option.isSome_iff_exists.1 hsome
    have hname := List.find?_some hfound
    rw [hfound, List.inj_on_of_nodup_map (nodup_names_of_pairwise h)
      (List.mem_of_find?_eq_some hfound) hsource (eq_of_beq hname)]

/-- Modules in the order of their names are known from what is found under each name. -/
theorem eq_of_find?_eq {left right : List ModuleSource}
    (hleft : left.Pairwise ModuleSource.Precedes) (hright : right.Pairwise ModuleSource.Precedes)
    (h : ∀ name, left.find? (·.name == name) = right.find? (·.name == name)) : left = right := by
  have hasymm (left right : ModuleSource) (h : left.Precedes right) : ¬right.Precedes left := by
    intro hback
    have hgt := Std.OrientedCmp.gt_iff_lt.2 hback
    rw [ModuleSource.Precedes, hgt] at h
    cases h
  have hperm : left.Perm right := by
    rw [List.perm_ext_iff_of_nodup (nodup_names_of_pairwise hleft).of_map
      (nodup_names_of_pairwise hright).of_map]
    intro source
    have hsame := h source.name
    constructor
    · intro hmem
      exact ((find?_eq_some_iff_of_pairwise hright).1
        (hsame ▸ (find?_eq_some_iff_of_pairwise hleft).2 ⟨hmem, rfl⟩)).1
    · intro hmem
      exact ((find?_eq_some_iff_of_pairwise hleft).1
        (hsame ▸ (find?_eq_some_iff_of_pairwise hright).2 ⟨hmem, rfl⟩)).1
  exact hperm.eq_of_pairwise (fun left right _ _ h h' ↦ absurd h' (hasymm left right h)) hleft hright

/-- A snapshot has none but the modules that it was made of. -/
theorem Snapshot.modules_ofModules_subset (version : Nat) (project : String)
    (modules : List ModuleSource) : (ofModules version project modules).modules ⊆ modules := by
  intro source hsource
  have hfound : (ofModules version project modules).module? source.name = some source :=
    (find?_eq_some_iff_of_pairwise (pairwise_modules_ofModules version project modules)).2
      ⟨hsource, rfl⟩
  rw [module?_ofModules] at hfound
  exact List.mem_reverse.1 (List.mem_of_find?_eq_some hfound)

namespace Assembly

theorem ofModules_concat (project : String) (modules : List ModuleText) (module : ModuleText) :
    ofModules project (modules ++ [module]) = (ofModules project modules).add module := by
  rw [ofModules, List.foldl_append]
  rfl

@[simp]
theorem project_ofModules (project : String) (modules : List ModuleText) :
    (ofModules project modules).project = project := by
  induction modules using List.reverseRecOn with
  | nil => rfl
  | append_singleton modules module ih =>
    rw [ofModules_concat]
    exact ih

/-- No component is collected twice. -/
theorem nodup_components (project : String) (modules : List ModuleText) :
    ((ofModules project modules).modules.map (·.component)).Nodup := by
  induction modules using List.reverseRecOn with
  | nil => exact List.nodup_nil
  | append_singleton modules module ih =>
    rw [ofModules_concat, add, List.map_append, List.map_singleton]
    refine List.nodup_append.2 ⟨ih.sublist (List.filter_sublist.map _), List.nodup_singleton _, ?_⟩
    intro component hcomponent other hother heq
    obtain ⟨kept, hkept, rfl⟩ := List.mem_map.1 hcomponent
    have hne := (List.mem_filter.1 hkept).2
    simp [heq, List.mem_singleton.1 hother] at hne

/-- Each module of a project is one that was given. -/
theorem subset_ofModules (project : String) (modules : List ModuleText) :
    (ofModules project modules).modules ⊆ modules := by
  induction modules using List.reverseRecOn with
  | nil => exact List.Subset.refl _
  | append_singleton modules module ih =>
    rw [ofModules_concat, add]
    intro kept hkept
    rcases List.mem_append.1 hkept with hold | hnew
    · exact List.mem_append_left _ (ih (List.mem_of_mem_filter hold))
    · exact List.mem_append_right _ hnew

/-- The text of a component is the last one that was given for it. -/
theorem find?_reverse_modules (project : String) (modules : List ModuleText) (component : String) :
    (ofModules project modules).modules.reverse.find? (·.component == component) =
      modules.reverse.find? (·.component == component) := by
  induction modules using List.reverseRecOn with
  | nil => rfl
  | append_singleton modules module ih =>
    rw [ofModules_concat, add, List.reverse_append, List.reverse_append, List.reverse_singleton,
      List.singleton_append, List.singleton_append, List.find?_cons, List.find?_cons]
    cases hmodule : module.component == component with
    | true => rfl
    | false =>
      have hother (kept : ModuleText) :
          decide ((kept.component != module.component) = true ∧
            (kept.component == component) = true) = (kept.component == component) := by
        rw [Bool.eq_iff_iff, decide_eq_true_iff, and_iff_right_iff_imp]
        intro hkept
        rw [eq_of_beq hkept, bne, Bool.not_eq_true', BEq.comm, hmodule]
      rw [← List.filter_reverse, List.find?_filter]
      simp only [hother]
      exact ih

/-- In the snapshot of some texts the module of a component is read from the last text that was given
for it. -/
theorem module?_build (project : String) (modules : List ModuleText) (version : Nat)
    (component : String) :
    ((ofModules project modules).build version).module? ⟨project, component⟩ =
      (modules.reverse.find? (·.component == component)).map (·.source project) := by
  have hname (module : ModuleText) :
      ((module.source project).name == ⟨project, component⟩) = (module.component == component) := by
    rw [Bool.eq_iff_iff, beq_iff_eq, beq_iff_eq]
    simp [ModuleText.source]
  rw [build_eq_snapshot (nodup_components project modules), snapshot, Snapshot.module?_ofModules,
    project_ofModules, ← List.map_reverse, List.find?_map, ← find?_reverse_modules project modules]
  simp only [Function.comp_def, hname]

/-- The snapshot of some texts has modules of the project only. -/
theorem project_eq_of_module?_build {project : String} {modules : List ModuleText}
    {version : Nat} {name : ModuleName} {source : ModuleSource}
    (h : ((ofModules project modules).build version).module? name = some source) :
    name.project = project := by
  rw [build_eq_snapshot (nodup_components project modules), snapshot, Snapshot.module?_ofModules]
    at h
  obtain ⟨module, -, hmodule⟩ := List.mem_map.1 (List.mem_reverse.1 (List.mem_of_find?_eq_some h))
  have hfound := List.find?_some h
  have hname : source.name = name := eq_of_beq hfound
  rw [← hname, ← hmodule]
  exact project_ofModules project modules

/-- The texts that count among the texts given for a project: for each component the last that was given
for it, in the order of the components. -/
structure LastTexts (modules texts : List ModuleText) : Prop where
  ordered : texts.Pairwise fun left right ↦ left.component < right.component
  mem_iff {module : ModuleText} : module ∈ texts ↔
    modules.reverse.find? (·.component == module.component) = some module

theorem component_lt_of_order {project left right : String}
    (h : ModuleName.order ⟨project, left⟩ ⟨project, right⟩ = .lt) : left < right := by
  have hself : compare project project = .eq := Std.ReflCmp.compare_self
  rw [ModuleName.order, hself, Ordering.then_eq_lt] at h
  exact compareOfLessAndEq_eq_lt.1 (h.resolve_left nofun).2

/-- A snapshot has one module for each text that counts, in the order of the texts. -/
theorem exists_lastTexts_build (project : String) (modules : List ModuleText) (version : Nat) :
    ∃ texts, LastTexts modules texts ∧
      ((ofModules project modules).build version).modules = texts.map (·.source project) := by
  let snapshot := (ofModules project modules).build version
  have hordered : snapshot.modules.Pairwise ModuleSource.Precedes := by
    simp only [snapshot, build_eq_snapshot (nodup_components project modules)]
    exact Snapshot.pairwise_modules_ofModules _ _ _
  have hfound (source : ModuleSource) (hsource : source ∈ snapshot.modules) :
      ∃ module, modules.reverse.find? (·.component == source.name.component) = some module ∧
        module.source project = source := by
    have hmodule : snapshot.module? source.name = some source :=
      (find?_eq_some_iff_of_pairwise hordered).2 ⟨hsource, rfl⟩
    have hname : source.name = ⟨project, source.name.component⟩ := by
      rw [← project_eq_of_module?_build hmodule]
    rw [hname, module?_build] at hmodule
    obtain ⟨module, hlast, hmade⟩ := Option.map_eq_some_iff.1 hmodule
    exact ⟨module, hlast, hmade⟩
  let texts := snapshot.modules.filterMap fun source ↦
    modules.reverse.find? (·.component == source.name.component)
  have hmodules : snapshot.modules = texts.map (·.source project) := by
    rw [List.map_filterMap]
    conv_lhs => rw [← List.filterMap_some (l := snapshot.modules)]
    apply List.filterMap_congr
    intro source hsource
    obtain ⟨module, hlast, hmade⟩ := hfound source hsource
    rw [hlast, Option.map_some, hmade]
  refine ⟨texts, ⟨?_, ?_⟩, hmodules⟩
  · rw [hmodules, List.pairwise_map] at hordered
    refine hordered.imp ?_
    intro left right hprecedes
    exact component_lt_of_order hprecedes
  · intro module
    constructor
    · intro hmodule
      obtain ⟨source, hsource, hlast⟩ := List.mem_filterMap.1 hmodule
      have hcomponent := List.find?_some hlast
      rw [eq_of_beq hcomponent]
      exact hlast
    · intro hlast
      have hmodule : snapshot.module? ⟨project, module.component⟩ = some (module.source project) := by
        rw [module?_build, hlast, Option.map_some]
      exact List.mem_filterMap.2 ⟨_, List.mem_of_find?_eq_some hmodule, hlast⟩

end Assembly

end VbaLint
