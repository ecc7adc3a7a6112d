import VbaLint.Files.Entry
import VbaLint.Proofs.Files.Paths

/-!
# What walks visit

Names lead from an entry to one below it. In a tree whose directories have no name twice, a walk comes to
every entry once, save those that have an entry on the way to them, or at its ends, that is refused.
-/

namespace VbaLint.Files

namespace Entry

/-- The entry to which some names lead. -/
def at? : Entry → List String → Option Entry
  | here, [] => some here
  | here, name :: rest => (here.entries.lookup name).bind (·.at? rest)

/-- In every directory of the tree each entry has a name of its own, which is the name of a file. -/
inductive IsProper : Entry → Prop
  | file (content : ByteArray) : IsProper (.file content)
  | link (content : Option ByteArray) : IsProper (.link content)
  | directory {entries : List (String × Entry)} (distinct : (entries.map (·.1)).Nodup)
    (named : ∀ entry ∈ entries, IsFileName entry.1) (proper : ∀ entry ∈ entries, entry.2.IsProper) :
    IsProper (.directory entries)

/-- The names lead to the entry, and on the way, the ends included, nothing is refused. -/
structure LeadsTo (keep : List String → Entry → Bool) (tree : Entry) (names : List String)
    (entry : Entry) : Prop where
  at?_eq : tree.at? names = some entry
  kept {front : List String} {passed : Entry} :
    front <+: names → tree.at? front = some passed → keep front passed = true

section

variable {keep : List String → Entry → Bool} {tree entry : Entry} {name : String}
  {names : List String} {entries : List (String × Entry)}

theorem leadsTo_nil_iff : tree.LeadsTo keep [] entry ↔ entry = tree ∧ keep [] tree = true := by
  constructor
  · rintro ⟨hat, hkept⟩
    exact ⟨(Option.some.inj hat).symm, hkept (List.prefix_refl []) rfl⟩
  · rintro ⟨rfl, hkept⟩
    refine ⟨rfl, fun {front passed} hfront hpassed ↦ ?_⟩
    rw [List.prefix_nil.1 hfront] at hpassed ⊢
    cases hpassed
    exact hkept

theorem leadsTo_cons_iff : tree.LeadsTo keep (name :: names) entry ↔
    keep [] tree = true ∧ ∃ child, tree.entries.lookup name = some child ∧
      child.LeadsTo (fun front ↦ keep (name :: front)) names entry := by
  constructor
  · rintro ⟨hat, hkept⟩
    obtain ⟨child, hchild, hbelow⟩ := Option.bind_eq_some_iff.1 hat
    refine ⟨hkept List.nil_prefix rfl, child, hchild, hbelow, fun {front passed} hfront hpassed ↦ ?_⟩
    refine hkept (List.cons_prefix_cons.2 ⟨rfl, hfront⟩) ?_
    rw [at?, hchild, Option.bind_some, hpassed]
  · rintro ⟨hroot, child, hchild, hbelow⟩
    refine ⟨?_, fun {front passed} hfront hpassed ↦ ?_⟩
    · rw [at?, hchild, Option.bind_some, hbelow.at?_eq]
    · rcases List.prefix_cons_iff.1 hfront with rfl | ⟨rest, rfl, hrest⟩
      · cases hpassed
        exact hroot
      · rw [at?, hchild, Option.bind_some] at hpassed
        exact hbelow.kept hrest hpassed

/-- In a directory without two entries of one name, a name finds exactly its entry. -/
theorem lookup_eq_some_iff (hdistinct : (entries.map (·.1)).Nodup) :
    entries.lookup name = some entry ↔ (name, entry) ∈ entries := by
  induction entries with
  | nil => simp
  | cons first rest ih =>
    obtain ⟨hfirst, hrest⟩ := List.nodup_cons.1 hdistinct
    obtain ⟨known, child⟩ := first
    rw [List.lookup_cons, List.mem_cons, Prod.mk.injEq]
    cases hsame : name == known with
    | true =>
      obtain rfl := eq_of_beq hsame
      have hnone : (name, entry) ∉ rest := fun hmem ↦ hfirst (List.mem_map.2 ⟨_, hmem, rfl⟩)
      simp [hnone, eq_comm]
    | false => simp [ih hrest, ne_of_beq_false hsame]

/-- A walk comes to an entry itself and then to what is in it, which is nothing but for a directory. -/
theorem walkFrom_eq (keep : List String → Entry → Bool) (trail : List String) (tree : Entry) :
    walkFrom keep trail tree =
      if keep trail tree = true then (trail, tree) :: walkIn keep trail tree.entries else [] := by
  cases tree <;> rfl

theorem mem_walkIn {trail : List String} : (names, entry) ∈ walkIn keep trail entries ↔
    ∃ name child, (name, child) ∈ entries ∧
      (names, entry) ∈ walkFrom keep (trail ++ [name]) child := by
  induction entries with
  | nil => simp [walkIn]
  | cons first rest ih =>
    rw [walkIn, List.mem_append, ih]
    constructor
    · rintro (hfirst | ⟨name, child, hmem, hbelow⟩)
      · exact ⟨first.1, first.2, List.mem_cons_self, hfirst⟩
      · exact ⟨name, child, List.mem_cons_of_mem first hmem, hbelow⟩
    · rintro ⟨name, child, hmem, hbelow⟩
      rcases List.mem_cons.1 hmem with rfl | hmem
      · exact .inl hbelow
      · exact .inr ⟨name, child, hmem, hbelow⟩

/-- If a walk comes below each entry of a directory to where names lead, it does so below the directory. -/
theorem mem_walkFrom_of_entries {trail : List String} (hdistinct : (tree.entries.map (·.1)).Nodup)
    (hentries : ∀ child ∈ tree.entries, ∀ {trail names}, (names, entry) ∈ walkFrom keep trail child.2 ↔
      ∃ below, names = trail ++ below ∧
        child.2.LeadsTo (fun front ↦ keep (trail ++ front)) below entry) :
    (names, entry) ∈ walkFrom keep trail tree ↔ ∃ below, names = trail ++ below ∧
      tree.LeadsTo (fun front ↦ keep (trail ++ front)) below entry := by
  rw [walkFrom_eq]
  constructor
  · intro hmem
    split at hmem
    · next hkept =>
      have hroot : keep (trail ++ []) tree = true := by rwa [List.append_nil]
      rcases List.mem_cons.1 hmem with heq | hmem
      · cases heq
        exact ⟨[], (List.append_nil _).symm, leadsTo_nil_iff.2 ⟨rfl, hroot⟩⟩
      · obtain ⟨name, child, hchild, hwalk⟩ := mem_walkIn.1 hmem
        obtain ⟨below, rfl, hbelow⟩ := (hentries _ hchild).1 hwalk
        refine ⟨name :: below, List.append_assoc .., leadsTo_cons_iff.2 ⟨hroot, child, ?_, ?_⟩⟩
        · exact (lookup_eq_some_iff hdistinct).2 hchild
        · simpa only [List.append_assoc, List.singleton_append] using hbelow
    · cases hmem
  · rintro ⟨below, rfl, hbelow⟩
    cases below with
    | nil =>
      obtain ⟨rfl, hkept⟩ := leadsTo_nil_iff.1 hbelow
      rw [List.append_nil] at hkept ⊢
      rw [if_pos hkept]
      exact List.mem_cons_self
    | cons name rest =>
      obtain ⟨hkept, child, hchild, hrest⟩ := leadsTo_cons_iff.1 hbelow
      rw [List.append_nil] at hkept
      rw [if_pos hkept]
      have hmem := (lookup_eq_some_iff hdistinct).1 hchild
      refine List.mem_cons_of_mem _
        (mem_walkIn.2 ⟨name, child, hmem, (hentries _ hmem).2 ⟨rest, ?_, ?_⟩⟩)
      · rw [List.append_assoc, List.singleton_append]
      · simpa only [List.append_assoc, List.singleton_append] using hrest

/-- A walk comes to the entries to which names lead past nothing that is refused. -/
theorem mem_walkFrom (hproper : tree.IsProper) {trail : List String} :
    (names, entry) ∈ walkFrom keep trail tree ↔ ∃ below, names = trail ++ below ∧
      tree.LeadsTo (fun front ↦ keep (trail ++ front)) below entry := by
  induction hproper generalizing trail names with
  | file content => exact mem_walkFrom_of_entries List.nodup_nil nofun
  | link content => exact mem_walkFrom_of_entries List.nodup_nil nofun
  | directory distinct named proper ih =>
    exact mem_walkFrom_of_entries distinct fun child hchild ↦ ih child hchild

/-- The entries of one directory are visited each below a name of its own. -/
theorem nodup_walkIn {trail : List String} (hdistinct : (entries.map (·.1)).Nodup)
    (hproper : ∀ entry ∈ entries, entry.2.IsProper)
    (hnodup : ∀ entry ∈ entries, ((walkFrom keep (trail ++ [entry.1]) entry.2).map (·.1)).Nodup) :
    ((walkIn keep trail entries).map (·.1)).Nodup := by
  induction entries with
  | nil => exact List.nodup_nil
  | cons first rest ih =>
    obtain ⟨hfirst, hrest⟩ := List.nodup_cons.1 hdistinct
    obtain ⟨hproperFirst, hproperRest⟩ := List.forall_mem_cons.1 hproper
    obtain ⟨hnodupFirst, hnodupRest⟩ := List.forall_mem_cons.1 hnodup
    rw [walkIn, List.map_append]
    refine List.nodup_append.2 ⟨hnodupFirst, ih hrest hproperRest hnodupRest, ?_⟩
    intro names hnames names' hnames' heq
    obtain ⟨⟨_, entry⟩, hvisited, rfl⟩ := List.mem_map.1 hnames
    obtain ⟨⟨_, entry'⟩, hvisited', rfl⟩ := List.mem_map.1 hnames'
    obtain ⟨name, child, hchild, hvisited'⟩ := mem_walkIn.1 hvisited'
    obtain ⟨below, hbelow, -⟩ := (mem_walkFrom hproperFirst).1 hvisited
    obtain ⟨below', hbelow', -⟩ := (mem_walkFrom (hproperRest _ hchild)).1 hvisited'
    have hname : first.1 = name := by
      have htrails := hbelow.symm.trans (heq.trans hbelow')
      simp only [List.append_assoc, List.append_cancel_left_eq, List.cons_append,
        List.cons.injEq] at htrails
      exact htrails.1
    exact hfirst (List.mem_map.2 ⟨_, hchild, hname.symm⟩)

theorem nodup_walkFrom (hproper : tree.IsProper) (trail : List String) :
    ((walkFrom keep trail tree).map (·.1)).Nodup := by
  induction hproper generalizing trail with
  | file content | link content =>
    rw [walkFrom]
    split
    · exact List.pairwise_singleton _ _
    · exact List.nodup_nil
  | @directory entries distinct named proper ih =>
    rw [walkFrom]
    split
    · rw [List.map_cons]
      refine List.nodup_cons.2 ⟨?_, nodup_walkIn distinct proper fun entry hentry ↦ ih entry hentry _⟩
      intro hmem
      obtain ⟨⟨_, entry⟩, hvisited, rfl⟩ := List.mem_map.1 hmem
      obtain ⟨name, child, hchild, hvisited⟩ := mem_walkIn.1 hvisited
      obtain ⟨below, hbelow, -⟩ := (mem_walkFrom (proper _ hchild)).1 hvisited
      simp at hbelow
    · exact List.nodup_nil

end

end Entry

/-- The walk comes to every entry once, save those behind an entry that is refused, and these. -/
structure Walk.IsThorough (walk : Walk) : Prop where
  mem_iff {keep : List String → Entry → Bool} {tree : Entry} {names : List String} {entry : Entry} :
    tree.IsProper → ((names, entry) ∈ walk keep tree ↔ tree.LeadsTo keep names entry)
  nodup {keep : List String → Entry → Bool} {tree : Entry} :
    tree.IsProper → ((walk keep tree).map (·.1)).Nodup

/-- The walk through a tree of entries misses none that the caller would take. -/
theorem Entry.isThorough_walk : Walk.IsThorough Entry.walk where
  mem_iff hproper := by
    rw [Entry.walk, mem_walkFrom hproper]
    simp
  nodup hproper := nodup_walkFrom hproper []

end VbaLint.Files
