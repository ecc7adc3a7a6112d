import VbaLint.Proofs.Pass.Configuration
import VbaLint.Proofs.Project.Assembling

/-!
# On which modules a snapshot depends

Of several texts that are given for one component only the last counts, and so does the last of several
modules with one name. In which order they are given, and what stood in their place before, does not
show in the snapshot.
-/

namespace VbaLint

section

variable {α κ : Type} [BEq κ]

/-- Under every name the last member is the same in both lists, if there is one. -/
def SameLast (name : α → κ) (left right : List α) : Prop :=
  ∀ key, left.reverse.find? (name · == key) = right.reverse.find? (name · == key)

end

/-- The snapshots of some modules are equal just if the last modules are the same under every name. -/
theorem Snapshot.ofModules_eq_iff {version : Nat} {project : String}
    {left right : List ModuleSource} :
    ofModules version project left = ofModules version project right ↔
      SameLast ModuleSource.name left right := by
  constructor
  · intro heq name
    rw [← module?_ofModules version project left, heq, module?_ofModules]
  · intro h
    have hmodules : (ofModules version project left).modules =
        (ofModules version project right).modules := by
      refine eq_of_find?_eq (pairwise_modules_ofModules version project left)
        (pairwise_modules_ofModules version project right) fun name ↦ ?_
      change (ofModules version project left).module? name =
        (ofModules version project right).module? name
      rw [module?_ofModules, module?_ofModules, h name]
    -- the declarations are made from the modules in their order, and from nothing else
    exact congrArg (fun modules : List ModuleSource ↦ (⟨version, project, modules,
      bindNames (modules.map fun module ↦ ⟨module.name, module.type, module.parsed.tree⟩)⟩ :
        Snapshot)) hmodules

namespace Assembly

variable {project : String} {first second : List ModuleText}

/-- Modules of one project are told apart by their components. -/
theorem sameLast_sources (h : SameLast ModuleText.component first second) (project : String) :
    SameLast ModuleSource.name (first.map (·.source project)) (second.map (·.source project)) := by
  rintro ⟨project', component⟩
  have htest : (fun source : ModuleSource ↦ source.name == ⟨project', component⟩) ∘
      (fun text ↦ text.source project) =
        fun text : ModuleText ↦ project == project' && text.component == component := by
    funext text
    rw [Function.comp_apply, Bool.eq_iff_iff]
    simp [ModuleText.source]
  rw [← List.map_reverse, ← List.map_reverse, List.find?_map, List.find?_map, htest]
  cases project == project' with
  | true =>
    simp only [Bool.true_and]
    rw [h component]
  | false =>
    have hnone (texts : List ModuleText) :
        texts.find? (fun text ↦ false && text.component == component) = none :=
      List.find?_eq_none.2 (by simp)
    rw [hnone, hnone]

theorem sameLast_ofModules (project : String) (texts : List ModuleText) :
    SameLast ModuleText.component (ofModules project texts).modules texts :=
  find?_reverse_modules project texts

/-- The texts that were replaced may as well be read with the others. -/
theorem snapshot_ofModules (project : String) (texts : List ModuleText) (version : Nat) :
    (ofModules project texts).snapshot version =
      .ofModules version project (texts.map (·.source project)) := by
  rw [snapshot, project_ofModules, Snapshot.ofModules_eq_iff]
  exact sameLast_sources (sameLast_ofModules project texts) project

theorem build_ofModules (project : String) (texts : List ModuleText) (version : Nat) :
    (ofModules project texts).build version =
      .ofModules version project (texts.map (·.source project)) := by
  rw [build_eq_snapshot (nodup_components project texts), snapshot_ofModules]

theorem LastTexts.of_sameLast {texts : List ModuleText} (htexts : LastTexts first texts)
    (h : SameLast ModuleText.component first second) : LastTexts second texts where
  ordered := htexts.ordered
  mem_iff {text} := by rw [htexts.mem_iff, h text.component]

/-- One snapshot is built of both lists of texts. -/
structure BuildAlike (project : String) (version : Nat) (first second : List ModuleText) : Prop where
  build_eq : (ofModules project first).build version = (ofModules project second).build version
  /-- Its modules are read from the last texts, in the order of their components. -/
  exists_lastTexts : ∃ texts, LastTexts first texts ∧ LastTexts second texts ∧
    ((ofModules project first).build version).modules = texts.map (·.source project)
  /-- A cache that was used for something else before does not matter, as long as digests tell the texts
  apart. -/
  buildCached_eq {calls : List CacheCall} :
    DigestsTellApart (CacheCall.allSources (calls ++ [.build (ofModules project second) version])) →
      ((ofModules project second).buildCached version (.after calls)).1 =
        (ofModules project first).build version
  /-- The built-in rules find the same in both, in whatever order they are run. -/
  exists_set (config : Config) : ∃ set : ResultSet, ∀ order : List Nat,
    ∀ texts ∈ [first, second],
      ((Runner.ofCatalog .builtIn config).runPassIn order
        ((ofModules project texts).build version) .clear).1 = .ok set
  /-- Other rules do not tell them apart either. -/
  runPassIn_eq {σ : Type} (runner : Runner σ) (order : List Nat) (signal : Signal) :
    runner.runPassIn order ((ofModules project first).build version) signal =
      runner.runPassIn order ((ofModules project second).build version) signal

end Assembly

/-- A snapshot depends on its last modules only. Texts that are given for a project in any order, with
any replacements, are built into one snapshot if they leave the same text and type for every component;
and modules are put together into one snapshot just if they leave the same module under every name. -/
theorem snapshots_depend_on_last_modules (version : Nat) (project : String) :
    (∀ {first second : List ModuleText}, SameLast ModuleText.component first second →
      Assembly.BuildAlike project version first second) ∧
    ∀ {left right : List ModuleSource}, SameLast ModuleSource.name left right ↔
      Snapshot.ofModules version project left = .ofModules version project right := by
  refine ⟨fun {first second} h ↦ ?_, Snapshot.ofModules_eq_iff.symm⟩
  have hbuild : (Assembly.ofModules project first).build version =
      (Assembly.ofModules project second).build version := by
    rw [Assembly.build_ofModules, Assembly.build_ofModules, Snapshot.ofModules_eq_iff]
    exact Assembly.sameLast_sources h project
  constructor
  · exact hbuild
  · obtain ⟨texts, htexts, hmodules⟩ := Assembly.exists_lastTexts_build project first version
    exact ⟨texts, htexts, htexts.of_sameLast h, hmodules⟩
  · intro calls hdigests
    rw [hbuild, Assembly.buildCached_after hdigests,
      Assembly.build_eq_snapshot (Assembly.nodup_components project second)]
  · intro config
    refine ⟨_, fun order ↦ List.forall_mem_cons.2
      ⟨Runner.runPassIn_builtIn config order _, List.forall_mem_singleton.2 ?_⟩⟩
    rw [← hbuild]
    exact Runner.runPassIn_builtIn config order _
  · intro σ runner order signal
    rw [hbuild]

/-- A class module is replaced by a standard module that uses a name of another one. -/
def revisedTexts : List ModuleText :=
  [⟨"Main", .classModule, "Option Base 1"⟩, ⟨"Ledger", .standardModule, "Public Total"⟩,
    ⟨"Main", .standardModule, "Total = 1"⟩]

/-- The texts that are left, in the other order. -/
def leftTexts : List ModuleText :=
  [⟨"Main", .standardModule, "Total = 1"⟩, ⟨"Ledger", .standardModule, "Public Total"⟩]

theorem snapshots_depend_on_last_modules_revised :
    SameLast ModuleText.component revisedTexts leftTexts ∧
      (Assembly.ofModules "Book" revisedTexts).build 3 =
        (Assembly.ofModules "Book" leftTexts).build 3 ∧
      ((Assembly.ofModules "Book" leftTexts).buildCached 3
        (.after [.build (.ofModules "Book" leftTexts) 2])).1 =
          (Assembly.ofModules "Book" revisedTexts).build 3 := by
  have hsame : SameLast ModuleText.component revisedTexts leftTexts := by
    intro component
    by_cases hmain : "Main" = component
    · subst hmain
      rfl
    · by_cases hledger : "Ledger" = component <;> simp [revisedTexts, leftTexts, hmain, hledger]
  have hne : Sha256.hex "Total = 1".toByteArray ≠ Sha256.hex "Public Total".toByteArray := by
    decide +kernel
  have h := (snapshots_depend_on_last_modules 3 "Book").1 hsame
  refine ⟨hsame, h.build_eq, h.buildCached_eq ?_⟩
  simp [DigestsTellApart, CacheCall.allSources, CacheCall.sources, Assembly.sources, leftTexts,
    Assembly.ofModules, Assembly.add, Assembly.new, hne, hne.symm]

end VbaLint
