import Mathlib.Data.List.Induction
import VbaLint.Project.Assembly
import VbaLint.Proofs.ListLemmas

/-!
# Parse caches are transparent

A cache answers each text with the reading of that very text, as if nothing were kept. Every reading
that it keeps is that of some text asked for before, under the key of that text, and texts with one key
are equal as long as their digests tell them apart. What is kept is known without any such
assumption: it is what the last call asked for.
-/

namespace VbaLint

/-! ## Tables of readings -/

namespace ReadingTable

/-- Every reading of the table is that of one of the texts, under the key of that text. -/
def IsMadeOf (table : ReadingTable) (sources : List SourceText) : Prop :=
  ∀ key parsed, table[key]? = some parsed →
    ∃ source ∈ sources, source.key = key ∧ source.parsed = parsed

theorem isMadeOf_empty (sources : List SourceText) : IsMadeOf ∅ sources := by
  intro key parsed h
  rw [Std.HashMap.getElem?_empty] at h
  cases h

/-- What a table made of pairs holds under a key stands in one of the pairs. -/
theorem mem_of_getElem?_ofList {pairs : List (ReadingKey × ParsedModule)} {key : ReadingKey}
    {parsed : ParsedModule} (h : (Std.HashMap.ofList pairs)[key]? = some parsed) :
    (key, parsed) ∈ pairs := by
  rw [Std.HashMap.ofList_eq_insertMany_empty, Std.HashMap.getElem?_insertMany_list,
    Std.HashMap.getElem?_empty, Option.or_none, List.findSomeRev?_eq_findSome?_reverse] at h
  obtain ⟨⟨first, reading⟩, hpair, heq⟩ := List.exists_of_findSome?_eq_some h
  obtain ⟨hkey, hreading⟩ := Option.ite_none_right_eq_some.1 heq
  rw [← eq_of_beq hkey, ← Option.some.inj hreading]
  exact List.mem_reverse.1 hpair

theorem isMadeOf_ofList {pairs : List (ReadingKey × ParsedModule)} {sources : List SourceText}
    (h : ∀ pair ∈ pairs, ∃ source ∈ sources, source.key = pair.1 ∧ source.parsed = pair.2) :
    IsMadeOf (.ofList pairs) sources :=
  fun key parsed hfound ↦ h (key, parsed) (mem_of_getElem?_ofList hfound)

end ReadingTable

/-! ## One call -/

namespace ParseCache

variable (cache : ParseCache) (sources : List SourceText)

def unknown : List SourceText := sources.filter fun source ↦ !cache.entries.contains source.key

/-- The readings made anew when the texts are asked for. -/
def made : ReadingTable :=
  .ofList ((cache.unknown sources).map fun source ↦ (source.key, source.parsed))

theorem readMissing_eq :
    cache.readMissing (sources.map fun source ↦ (source.key, source)) =
      (cache.unknown sources).map fun source ↦ (source.key, source.parsed) := by
  simp only [readMissing, unknown, List.filter_map, List.map_map]
  rfl

theorem readings_eq :
    (cache.readAll sources).1 =
      sources.map fun source ↦ cache.read (cache.made sources) source.key source := by
  rw [readAll, readMissing_eq, List.map_map]
  rfl

theorem entries_eq :
    (cache.readAll sources).2.entries =
      .ofList (sources.map fun source ↦
        (source.key, (cache.read (cache.made sources) source.key source).parsed)) := by
  simp only [readAll, readMissing_eq, List.map_map, List.zip_map', Function.comp_def]
  rfl

@[simp]
theorem misses_readAll :
    (cache.readAll sources).2.misses = cache.misses + (cache.unknown sources).length := by
  simp [readAll, readMissing_eq]

@[simp]
theorem hits_readAll :
    (cache.readAll sources).2.hits =
      cache.hits + (sources.length - (cache.unknown sources).length) := by
  simp [readAll, readMissing_eq]

/-- What is kept after a call is what the call asked for, each text once. -/
theorem keys_entries_readAll :
    (cache.readAll sources).2.entries.keys.Perm (sources.map (·.key)).eraseDups := by
  have hkeys := Std.HashMap.distinct_keys (m := (cache.readAll sources).2.entries)
  have hnodup : (cache.readAll sources).2.entries.keys.Nodup :=
    hkeys.imp fun h heq ↦ by simp [heq] at h
  refine (List.perm_ext_iff_of_nodup hnodup (nodup_eraseDups _)).2 ?_
  intro key
  rw [Std.HashMap.mem_keys, entries_eq, Std.HashMap.mem_ofList, List.map_map, List.mem_eraseDups,
    List.contains_iff_mem]
  rfl

theorem contains_entries_readAll (key : ReadingKey) :
    (cache.readAll sources).2.entries.contains key = decide (key ∈ sources.map (·.key)) := by
  rw [entries_eq, Std.HashMap.contains_ofList, List.map_map, List.contains_eq_mem]
  rfl

variable {cache sources}

theorem isMadeOf_made : ReadingTable.IsMadeOf (cache.made sources) sources := by
  apply ReadingTable.isMadeOf_ofList
  intro pair hpair
  obtain ⟨source, hsource, rfl⟩ := List.mem_map.1 hpair
  exact ⟨source, (List.mem_filter.1 hsource).1, rfl, rfl⟩

/-- A text is answered with the reading of a text of the same key, either one of the call or one that
was asked for before. -/
theorem exists_of_read {history : List SourceText}
    (h : ReadingTable.IsMadeOf cache.entries history) {source : SourceText}
    (hsource : source ∈ sources) :
    ∃ known ∈ history ++ sources, known.key = source.key ∧
      known.parsed = (cache.read (cache.made sources) source.key source).parsed := by
  unfold read
  split
  next parsed hmade =>
    obtain ⟨known, hknown, hread⟩ := isMadeOf_made source.key parsed hmade
    exact ⟨known, List.mem_append_right history hknown, hread⟩
  next =>
    split
    next parsed hkept =>
      obtain ⟨known, hknown, hread⟩ := h source.key parsed hkept
      exact ⟨known, List.mem_append_left sources hknown, hread⟩
    next => exact ⟨source, List.mem_append_right history hsource, rfl, rfl⟩

theorem isMadeOf_readAll {history : List SourceText}
    (h : ReadingTable.IsMadeOf cache.entries history) :
    ReadingTable.IsMadeOf (cache.readAll sources).2.entries (history ++ sources) := by
  rw [entries_eq]
  apply ReadingTable.isMadeOf_ofList
  intro pair hpair
  obtain ⟨source, hsource, rfl⟩ := List.mem_map.1 hpair
  exact exists_of_read h hsource

/-- A text counts as reused if its reading was kept. -/
theorem isReused_read {source : SourceText} (hsource : source ∈ sources) :
    (cache.read (cache.made sources) source.key source).isReused =
      cache.entries.contains source.key := by
  have hmade : (cache.made sources)[source.key]?.isSome = !cache.entries.contains source.key := by
    rw [Std.HashMap.isSome_getElem?_eq_contains, made, Std.HashMap.contains_ofList, List.map_map,
      Bool.eq_iff_iff, List.contains_iff_mem, List.mem_map]
    constructor
    · rintro ⟨other, hother, hkey⟩
      have hnew := (List.mem_filter.1 hother).2
      rwa [← show other.key = source.key from hkey]
    · intro hnew
      exact ⟨source, List.mem_filter.2 ⟨hsource, hnew⟩, rfl⟩
  unfold read
  rw [← Bool.not_not (cache.entries.contains source.key), ← hmade]
  cases hfound : (cache.made sources)[source.key]? with
  | some parsed => rfl
  | none =>
    rw [hfound, Option.isSome_none] at hmade
    have hkept : cache.entries[source.key]?.isSome := by
      rw [Std.HashMap.isSome_getElem?_eq_contains]
      simpa using hmade
    obtain ⟨parsed, hparsed⟩ := Option.isSome_iff_exists.1 hkept
    simp [hparsed]

end ParseCache

/-! ## Many calls -/

def Assembly.sources (assembly : Assembly) : List SourceText :=
  assembly.modules.map fun module ↦ ⟨module.component, module.text⟩

/-- What a cache is asked to do. -/
inductive CacheCall where
  | read (sources : List SourceText)
  | build (assembly : Assembly) (version : Nat)

namespace CacheCall

def sources : CacheCall → List SourceText
  | read sources => sources
  | build assembly _ => assembly.sources

def keys (call : CacheCall) : List ReadingKey := call.sources.map (·.key)

def next (cache : ParseCache) : CacheCall → ParseCache
  | read sources => (cache.readAll sources).2
  | build assembly version => (assembly.buildCached version cache).2

def allSources (calls : List CacheCall) : List SourceText := calls.flatMap sources

/-- The keys of the texts that the last of some calls asked for; none before the first call. -/
def lastKeys (calls : List CacheCall) : List ReadingKey := (calls.getLast?.map keys).getD []

theorem next_eq (cache : ParseCache) (call : CacheCall) :
    call.next cache = (cache.readAll call.sources).2 := by
  cases call <;> rfl

end CacheCall

def ParseCache.after (calls : List CacheCall) : ParseCache :=
  calls.foldl (fun cache call ↦ call.next cache) .empty

open ParseCache CacheCall

theorem ParseCache.after_concat (calls : List CacheCall) (call : CacheCall) :
    after (calls ++ [call]) = ((after calls).readAll call.sources).2 := by
  rw [after, List.foldl_append, ← next_eq]
  rfl

theorem allSources_concat (calls : List CacheCall) (call : CacheCall) :
    allSources (calls ++ [call]) = allSources calls ++ call.sources := by
  simp [allSources]

/-- Whatever was asked for, the readings kept are those of texts that were asked for. -/
theorem isMadeOf_after (calls : List CacheCall) :
    ReadingTable.IsMadeOf (after calls).entries (allSources calls) := by
  induction calls using List.reverseRecOn with
  | nil => exact ReadingTable.isMadeOf_empty _
  | append_singleton calls call ih =>
    rw [after_concat, allSources_concat]
    exact isMadeOf_readAll ih

/-- What is kept is what was asked for last. -/
theorem contains_after (calls : List CacheCall) (key : ReadingKey) :
    (after calls).entries.contains key = decide (key ∈ lastKeys calls) := by
  induction calls using List.reverseRecOn with
  | nil => simp [after, ParseCache.empty, lastKeys]
  | append_singleton calls call ih =>
    rw [after_concat, contains_entries_readAll]
    simp [lastKeys, keys]

/-- Every text asked for was either found or not. -/
theorem hits_add_misses_after (calls : List CacheCall) :
    (after calls).hits + (after calls).misses = (allSources calls).length := by
  induction calls using List.reverseRecOn with
  | nil => rfl
  | append_singleton calls call ih =>
    have hle : ((after calls).unknown call.sources).length ≤ call.sources.length :=
      List.length_filter_le _ _
    rw [after_concat, allSources_concat, hits_readAll, misses_readAll, List.length_append]
    omega

/-- The digests of the texts of some sources tell the texts apart. -/
def DigestsTellApart (sources : List SourceText) : Prop :=
  ∀ source ∈ sources, ∀ other ∈ sources,
    Sha256.hex source.text.toUTF8 = Sha256.hex other.text.toUTF8 → source.text = other.text

/-- Digests that tell texts apart tell fewer texts apart. -/
theorem DigestsTellApart.mono {sources fewer : List SourceText} (h : DigestsTellApart sources)
    (hsub : fewer ⊆ sources) : DigestsTellApart fewer :=
  fun source hsource other hother ↦ h source (hsub hsource) other (hsub hother)

theorem DigestsTellApart.of_text_eq {sources : List SourceText} (text : String)
    (h : ∀ source ∈ sources, source.text = text) : DigestsTellApart sources :=
  fun source hsource other hother _ ↦ (h source hsource).trans (h other hother).symm

theorem DigestsTellApart.eq_of_key_eq {sources : List SourceText} (h : DigestsTellApart sources)
    {source other : SourceText} (hsource : source ∈ sources) (hother : other ∈ sources)
    (hkey : source.key = other.key) : source = other := by
  obtain ⟨hcomponent, hhash⟩ := Prod.ext_iff.1 hkey
  have htext := h source hsource other hother hhash
  cases source
  cases other
  cases hcomponent
  cases htext
  rfl

/-- A cache answers each text with its own reading, if no text asked for before has the key of another
one. -/
theorem ParseCache.parsed_readAll {cache : ParseCache} {history sources : List SourceText}
    (hmade : ReadingTable.IsMadeOf cache.entries history)
    (hkeys : ∀ source ∈ sources, ∀ known ∈ history ++ sources, known.key = source.key →
      known = source) :
    (cache.readAll sources).1.map (fun reading ↦ (reading.hash, reading.parsed)) =
      sources.map fun source ↦
        (Sha256.hex source.text.toUTF8, readModule source.component source.text) := by
  rw [readings_eq, List.map_map]
  apply List.map_congr_left
  intro source hsource
  obtain ⟨known, hknown, hkey, hparsed⟩ := exists_of_read hmade hsource
  have heq := hkeys source hsource known hknown hkey
  subst heq
  have hhash : (cache.read (cache.made sources) known.key known).hash = known.key.2 := by
    unfold read
    split
    · rfl
    · split <;> rfl
  exact Prod.ext hhash hparsed.symm

/-! ## Snapshots of texts -/

/-- The module of a project as it is read from its own text. -/
def ModuleText.source (project : String) (module : ModuleText) : ModuleSource where
  name := ⟨project, module.component⟩
  type := module.type
  contentHash := Sha256.hex module.text.toUTF8
  parsed := readModule module.component module.text

namespace Assembly

/-- The snapshot in which each module is read from its own text. -/
def snapshot (assembly : Assembly) (version : Nat) : Snapshot :=
  .ofModules version assembly.project (assembly.modules.map (·.source assembly.project))

theorem buildCached_eq_snapshot {assembly : Assembly} {cache : ParseCache}
    {history : List SourceText} (hmade : ReadingTable.IsMadeOf cache.entries history)
    (hkeys : ∀ source ∈ assembly.sources, ∀ known ∈ history ++ assembly.sources,
      known.key = source.key → known = source) (version : Nat) :
    (assembly.buildCached version cache).1 = assembly.snapshot version := by
  have hread := parsed_readAll hmade hkeys
  let module (pair : ModuleText × String × ParsedModule) : ModuleSource :=
    ⟨⟨assembly.project, pair.1.component⟩, pair.1.type, pair.2.1, pair.2.2⟩
  have hmodules :
      (assembly.modules.zip ((cache.readAll assembly.sources).1.map fun reading ↦
          (reading.hash, reading.parsed))).map module =
        assembly.modules.map (·.source assembly.project) := by
    let reading (module : ModuleText) : String × ParsedModule :=
      (Sha256.hex module.text.toUTF8, readModule module.component module.text)
    have hzip : (assembly.modules.map fun module ↦ (module, reading module)) =
        assembly.modules.zip (assembly.modules.map reading) :=
      List.map_prod_left_eq_zip
    rw [hread, sources, List.map_map]
    exact (congrArg (List.map module) hzip.symm).trans List.map_map
  rw [snapshot, ← hmodules, List.zip_map_right, List.map_map]
  rfl

/-- As long as digests tell the texts apart, a cache that was used gives the snapshot of the texts
themselves. -/
theorem buildCached_after {calls : List CacheCall} {assembly : Assembly} {version : Nat}
    (h : DigestsTellApart (allSources (calls ++ [.build assembly version]))) :
    (assembly.buildCached version (after calls)).1 = assembly.snapshot version := by
  rw [allSources_concat] at h
  apply buildCached_eq_snapshot (isMadeOf_after calls)
  intro source hsource known hknown hkey
  exact h.eq_of_key_eq hknown (List.mem_append_right _ hsource) hkey

/-- Without a used cache the components alone tell the texts apart. -/
theorem build_eq_snapshot {assembly : Assembly}
    (hnodup : (assembly.modules.map (·.component)).Nodup) (version : Nat) :
    assembly.build version = assembly.snapshot version := by
  apply buildCached_eq_snapshot (ReadingTable.isMadeOf_empty [])
  intro source hsource known hknown hkey
  have hcomponents : (assembly.sources.map (·.component)).Nodup := by
    rw [sources, List.map_map]
    exact hnodup
  exact List.inj_on_of_nodup_map hcomponents hknown hsource (congrArg Prod.fst hkey)

end Assembly

/-- A cache is transparent. Whatever it was asked before, a call is answered, in order, with the
readings of the very texts that it asks for, and builds the snapshot that is built without a cache, as
long as digests tell the texts apart. In any case the cache keeps afterwards just the keys of that
call, has counted every text asked for so far, and counts those of this call as found that the call
before asked for too. -/
theorem cache_is_transparent (calls : List CacheCall) (call : CacheCall) :
    let cache := after calls
    let next := call.next cache
    (DigestsTellApart (allSources (calls ++ [call])) →
      (cache.readAll call.sources).1.map (fun reading ↦ (reading.hash, reading.parsed)) =
          call.sources.map (fun source ↦
            (Sha256.hex source.text.toUTF8, readModule source.component source.text)) ∧
        ∀ assembly version, call = .build assembly version →
          (assembly.buildCached version cache).1 = assembly.build version) ∧
      next.entries.keys.Perm call.keys.eraseDups ∧
      next.hits + next.misses = (allSources (calls ++ [call])).length ∧
      next.hits = cache.hits + call.keys.countP (fun key ↦ key ∈ lastKeys calls) ∧
      (cache.readAll call.sources).1.map (·.isReused) =
        call.keys.map fun key ↦ decide (key ∈ lastKeys calls) := by
  intro cache next
  have hnext : next = (cache.readAll call.sources).2 := next_eq cache call
  refine ⟨?_, ?_, ?_, ?_, ?_⟩
  · intro hdigests
    refine ⟨?_, ?_⟩
    · rw [allSources_concat] at hdigests
      apply parsed_readAll (isMadeOf_after calls)
      intro source hsource known hknown hkey
      exact hdigests.eq_of_key_eq hknown (List.mem_append_right _ hsource) hkey
    · rintro assembly version rfl
      have hnew : DigestsTellApart (allSources ([] ++ [.build assembly version])) := by
        rw [allSources_concat] at hdigests ⊢
        exact fun source hsource other hother ↦ hdigests source
          (List.mem_append_right _ hsource) other (List.mem_append_right _ hother)
      calc (assembly.buildCached version cache).1
          = assembly.snapshot version := Assembly.buildCached_after hdigests
        _ = (assembly.buildCached version (after [])).1 := (Assembly.buildCached_after hnew).symm
        _ = assembly.build version := rfl
  · rw [hnext]
    exact keys_entries_readAll cache call.sources
  · have hcounted := hits_add_misses_after (calls ++ [call])
    rw [after_concat, ← hnext] at hcounted
    exact hcounted
  · have hunknown : (cache.unknown call.sources).length +
        call.keys.countP (fun key ↦ key ∈ lastKeys calls) = call.sources.length := by
      have hcontains : ∀ source : SourceText,
          cache.entries.contains source.key = decide (source.key ∈ lastKeys calls) :=
        fun source ↦ contains_after calls source.key
      have hsplit := List.length_eq_countP_add_countP
        (fun source : SourceText ↦ decide (source.key ∈ lastKeys calls)) (l := call.sources)
      simp only [unknown, hcontains, keys, List.countP_map, ← List.countP_eq_length_filter,
        Function.comp_def]
      rw [hsplit, Nat.add_comm]
      congr 1
      apply List.countP_congr
      simp
    rw [hnext, hits_readAll]
    omega
  · rw [readings_eq, keys, List.map_map, List.map_map]
    apply List.map_congr_left
    intro source hsource
    exact (isReused_read hsource).trans (contains_after calls source.key)

/-- Two components with one text; then one of them alone, edited, and asked for more than once. -/
def editedCalls : List CacheCall :=
  [.read [⟨"A", "x = 1"⟩, ⟨"B", "x = 1"⟩],
    .read [⟨"A", "y = 2"⟩, ⟨"A", "x = 1"⟩, ⟨"A", "y = 2"⟩]]

def restoredAssembly : Assembly :=
  .ofModules "P" [⟨"B", .standardModule, "x = 1"⟩, ⟨"A", .standardModule, "y = 2"⟩]

theorem cache_is_transparent_edited :
    DigestsTellApart (allSources (editedCalls ++ [.build restoredAssembly 3])) ∧
      (restoredAssembly.buildCached 3 (after editedCalls)).1 = restoredAssembly.build 3 ∧
      ((after editedCalls).readAll restoredAssembly.sources).1.map (·.isReused) =
        [false, true] := by
  have h := cache_is_transparent editedCalls (.build restoredAssembly 3)
  have hne : Sha256.hex "x = 1".toByteArray ≠ Sha256.hex "y = 2".toByteArray := by
    decide +kernel
  have hdigests : DigestsTellApart (allSources (editedCalls ++ [.build restoredAssembly 3])) := by
    simp [DigestsTellApart, allSources, editedCalls, CacheCall.sources, Assembly.sources,
      restoredAssembly, Assembly.ofModules, Assembly.add, Assembly.new, hne, hne.symm]
  refine ⟨hdigests, (h.1 hdigests).2 restoredAssembly 3 rfl, h.2.2.2.2.trans ?_⟩
  simp [lastKeys, keys, editedCalls, CacheCall.sources, Assembly.sources, restoredAssembly,
    Assembly.ofModules, Assembly.add, Assembly.new, SourceText.key]

end VbaLint
