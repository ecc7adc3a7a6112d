import VbaLint.Project.Discovery
import VbaLint.Proofs.Files.Walks
import VbaLint.Proofs.ListLemmas

/-!
# What discovery finds

Below a directory every file with a component is found, once and in the order of the paths, unless a
directory on the way to it is left out. This does not depend on the order in which the tree is walked
through. The directory where the search begins is subject to the same test: if its own name is one of
those that are left out, nothing is found.
-/

namespace VbaLint

open Files

/-! ## Ways through a tree -/

namespace Files.Entry

variable {tree entry : Entry} {names : List String}

theorem at?_append (tree : Entry) (front rest : List String) :
    tree.at? (front ++ rest) = (tree.at? front).bind (·.at? rest) := by
  induction front generalizing tree with
  | nil => rfl
  | cons name front ih =>
    rw [List.cons_append, at?, at?]
    cases tree.entries.lookup name with
    | none => rfl
    | some child => exact ih child

/-- Only below a directory there is anything. -/
theorem isDirectory_of_at? {name : String} {rest : List String}
    (h : tree.at? (name :: rest) = some entry) : tree.isDirectory = true := by
  cases tree with
  | directory entries => rfl
  | _ => cases h

theorem isDirectory_eq_false_of_isFile (h : entry.isFile = true) : entry.isDirectory = false := by
  cases entry with
  | directory entries => cases h
  | _ => rfl

/-- Names that lead somewhere in a proper tree can all name files. -/
theorem IsProper.isFileName (hproper : tree.IsProper) (h : tree.at? names = some entry) :
    ∀ name ∈ names, IsFileName name := by
  induction hproper generalizing names with
  | file content | link content =>
    cases names with
    | nil => simp
    | cons name rest => cases h
  | @directory entries distinct named proper ih =>
    cases names with
    | nil => simp
    | cons name rest =>
      obtain ⟨child, hchild, hbelow⟩ := Option.bind_eq_some_iff.1 h
      have hmem := (lookup_eq_some_iff distinct).1 hchild
      exact List.forall_mem_cons.2 ⟨named _ hmem, ih _ hmem hbelow⟩

/-- The names lead to a file that holds a component, or to a link to one, through directories that are not
left out. -/
structure HoldsComponent (tree : Entry) (excludes names : List String) : Prop where
  isFile : ∃ file, tree.at? names = some file ∧ file.isFile = true
  isComponent : ∃ name ∈ names.getLast?,
    ((splitName name).2.bind ComponentType.ofExtension?).isSome = true
  isOpen : ∀ directory ∈ names.dropLast, directory ∉ excludedDirectories ++ excludes

end Files.Entry

/-! ## What a walk is kept from -/

section

variable {tree : Entry} {root : String} {excludes names : List String}

/-- The name by which the directory where a search begins is tested. -/
def rootName (root : String) : String := (fileName? root).getD root

/-- The test of a search lets a walk come to a file just if no directory on the way to it, the root
included, is left out. -/
theorem leadsTo_file_iff (hdirectory : tree.isDirectory = true) {file : Entry}
    (hfile : file.isFile = true) :
    tree.LeadsTo (isSearched excludes root) names file ↔
      tree.at? names = some file ∧
        rootName root ∉ excludedDirectories ++ excludes ∧
        ∀ directory ∈ names.dropLast, directory ∉ excludedDirectories ++ excludes := by
  constructor
  · rintro ⟨hat, hkept⟩
    refine ⟨hat, ?_, ?_⟩
    · have hroot := hkept List.nil_prefix rfl
      simpa [isSearched, hdirectory, rootName] using hroot
    · intro directory hmem
      obtain ⟨front, rest, hrest, rfl⟩ := mem_dropLast_iff.1 hmem
      obtain ⟨name, more, rfl⟩ := List.exists_cons_of_ne_nil hrest
      have hsplit : front ++ directory :: name :: more = front ++ [directory] ++ name :: more := by
        simp
      rw [hsplit, Entry.at?_append] at hat
      obtain ⟨passed, hpassed, hbelow⟩ := Option.bind_eq_some_iff.1 hat
      have htest := hkept (hsplit ▸ List.prefix_append _ _) hpassed
      simpa [isSearched, Entry.isDirectory_of_at? hbelow] using htest
  · rintro ⟨hat, hroot, hopen⟩
    refine ⟨hat, fun {front passed} hfront hpassed ↦ ?_⟩
    rcases List.eq_nil_or_concat' front with rfl | ⟨front, directory, rfl⟩
    · cases hpassed
      simpa [isSearched, hdirectory, rootName] using hroot
    · cases hpassable : passed.isDirectory with
      | false => simp [isSearched, hpassable]
      | true =>
        obtain ⟨rest, rfl⟩ := hfront
        have hrest : rest ≠ [] := by
          rintro rfl
          rw [List.append_nil, hpassed] at hat
          cases hat
          cases hpassable.symm.trans (Entry.isDirectory_eq_false_of_isFile hfile)
        have hmem : directory ∈ (front ++ [directory] ++ rest).dropLast :=
          mem_dropLast_iff.2 ⟨front, rest, hrest, by simp⟩
        simpa [isSearched, hpassable] using hopen directory hmem

/-- The type of component in a file hangs on its own name. -/
theorem ofPath?_foldl_join {name : String} (hname : IsFileName name) (front : List String) :
    ComponentType.ofPath? ((front ++ [name]).foldl join root) =
      (splitName name).2.bind ComponentType.ofExtension? := by
  rw [List.foldl_append, List.foldl_cons, List.foldl_nil, ComponentType.ofPath?, extension?,
    fileName?_join hname, Option.bind_some]

end

/-! ## What is found -/

section

variable {walk : Walk} {files : FileView} {tree : Entry} {root : String} {excludes found : List String}

/-- The files with components that a walk comes to, in the order in which it comes to them. -/
def candidates (walk : Walk) (tree : Entry) (root : String) (excludes : List String) : List String :=
  (((walk (isSearched excludes root) tree).filter (·.2.isFile)).map
    fun (trail, _) ↦ trail.foldl join root).filter fun path ↦ (ComponentType.ofPath? path).isSome

theorem gatherFilesBy_eq (hroot : files root = some tree) :
    gatherFilesBy walk files root excludes =
      some ((candidates walk tree root excludes).mergeSort fun left right ↦
        Files.order left right != .gt) := by
  rw [gatherFilesBy, hroot]
  rfl

section

variable (hwalk : walk.IsThorough) (hproper : tree.IsProper) (hdirectory : tree.isDirectory = true)
include hwalk hproper hdirectory

/-- The files that a walk comes to are those that are not behind a directory that is left out. -/
theorem mem_visited_iff {names : List String} :
    (∃ entry, (names, entry) ∈ (walk (isSearched excludes root) tree).filter (·.2.isFile)) ↔
      rootName root ∉ excludedDirectories ++ excludes ∧
        (∃ file, tree.at? names = some file ∧ file.isFile = true) ∧
        ∀ directory ∈ names.dropLast, directory ∉ excludedDirectories ++ excludes := by
  simp only [List.mem_filter, hwalk.mem_iff hproper]
  constructor
  · rintro ⟨file, hleads, hfile⟩
    obtain ⟨hat, hroot, hopen⟩ := (leadsTo_file_iff hdirectory hfile).1 hleads
    exact ⟨hroot, ⟨file, hat, hfile⟩, hopen⟩
  · rintro ⟨hroot, ⟨file, hat, hfile⟩, hopen⟩
    exact ⟨file, (leadsTo_file_iff hdirectory hfile).2 ⟨hat, hroot, hopen⟩, hfile⟩

theorem mem_candidates_iff {path : String} : path ∈ candidates walk tree root excludes ↔
    rootName root ∉ excludedDirectories ++ excludes ∧
      ∃ names, tree.HoldsComponent excludes names ∧ path = names.foldl join root := by
  have htype {names : List String} {file : Entry} (hat : tree.at? names = some file)
      (hfile : file.isFile = true) :
      (ComponentType.ofPath? (names.foldl join root)).isSome = true ↔
        ∃ name ∈ names.getLast?, ((splitName name).2.bind ComponentType.ofExtension?).isSome = true := by
    rcases List.eq_nil_or_concat' names with rfl | ⟨front, name, rfl⟩
    · cases hat
      cases hdirectory.symm.trans (Entry.isDirectory_eq_false_of_isFile hfile)
    · rw [ofPath?_foldl_join (hproper.isFileName hat name (by simp)), List.getLast?_concat]
      simp
  rw [candidates, List.mem_filter, List.mem_map]
  constructor
  · rintro ⟨⟨⟨names, entry⟩, hentry, rfl⟩, hcomponent⟩
    obtain ⟨hroot, ⟨file, hat, hfile⟩, hopen⟩ :=
      (mem_visited_iff hwalk hproper hdirectory).1 ⟨entry, hentry⟩
    exact ⟨hroot, names, ⟨⟨file, hat, hfile⟩, (htype hat hfile).1 hcomponent, hopen⟩, rfl⟩
  · rintro ⟨hroot, names, ⟨⟨file, hat, hfile⟩, hcomponent, hopen⟩, rfl⟩
    obtain ⟨entry, hentry⟩ :=
      (mem_visited_iff hwalk hproper hdirectory).2 ⟨hroot, ⟨file, hat, hfile⟩, hopen⟩
    exact ⟨⟨(names, entry), hentry, rfl⟩, (htype hat hfile).2 hcomponent⟩

/-- No two of the files have the same path. -/
theorem pairwise_parts_candidates : (candidates walk tree root excludes).Pairwise fun left right ↦
    parts left ≠ parts right := by
  have hnamed {visit : List String × Entry}
      (hvisit : visit ∈ (walk (isSearched excludes root) tree).filter (·.2.isFile)) :
      ∀ name ∈ visit.1, IsFileName name := by
    obtain ⟨-, ⟨file, hat, -⟩, -⟩ := (mem_visited_iff hwalk hproper hdirectory).1 ⟨visit.2, hvisit⟩
    exact hproper.isFileName hat
  have hnodup : ((walk (isSearched excludes root) tree).filter (·.2.isFile)).Pairwise
      fun left right ↦ left.1 ≠ right.1 :=
    (List.pairwise_map.1 (hwalk.nodup hproper)).filter _
  refine List.Pairwise.filter _ (List.pairwise_map.2 ?_)
  refine hnodup.imp_of_mem fun {left right} hleft hright hne hparts ↦ hne ?_
  exact foldl_join_inj (hnamed hleft) (hnamed hright) hparts

end

/-- Paths in strictly increasing order are known from which they are. -/
theorem eq_of_pairwise_order {found' : List String}
    (h : found.Pairwise fun left right ↦ Files.order left right = .lt)
    (h' : found'.Pairwise fun left right ↦ Files.order left right = .lt)
    (hmem : ∀ path, path ∈ found ↔ path ∈ found') : found = found' := by
  have hne {left right : String} (hlt : Files.order left right = .lt) : left ≠ right := by
    rintro rfl
    have hself : Files.order left left = .eq := Std.ReflCmp.compare_self
    cases hself.symm.trans hlt
  have hperm : found.Perm found' := (List.perm_ext_iff_of_nodup (h.imp hne) (h'.imp hne)).2 hmem
  refine hperm.eq_of_pairwise (fun left right _ _ hlt hgt ↦ ?_) h h'
  cases (Std.OrientedCmp.gt_iff_lt.2 hgt).symm.trans hlt

/-- Just the files below the root that hold components are found, each once and in order. -/
structure FindsAll (tree : Entry) (root : String) (excludes found : List String) : Prop where
  sorted : found.Pairwise fun left right ↦ Files.order left right = .lt
  nodup : found.Nodup
  mem_iff {path : String} : path ∈ found ↔
    ∃ names, tree.HoldsComponent excludes names ∧ path = names.foldl join root

/-- A search below a directory finds, once and in order, all the files with components to which no
excluded directory leads, whatever walk is taken; but nothing if that directory itself has the name of an
excluded one. -/
theorem discovery_misses_nothing_below (hwalk : walk.IsThorough) (hroot : files root = some tree)
    (hproper : tree.IsProper) (hdirectory : tree.isDirectory = true) (excludes : List String) :
    ∃ found, gatherFilesBy walk files root excludes = some found ∧
      gatherFiles files root excludes = some found ∧
      if rootName root ∈ excludedDirectories ++ excludes then found = []
      else FindsAll tree root excludes found := by
  have hsorted {walk : Walk} (hwalk : walk.IsThorough) :
      ((candidates walk tree root excludes).mergeSort
        fun left right ↦ Files.order left right != .gt).Pairwise
          fun left right ↦ Files.order left right = .lt :=
    pairwise_mergeSort_order (pairwise_parts_candidates hwalk hproper hdirectory)
  have hmem {walk : Walk} (hwalk : walk.IsThorough) (path : String) :
      path ∈ (candidates walk tree root excludes).mergeSort
          (fun left right ↦ Files.order left right != .gt) ↔
        rootName root ∉ excludedDirectories ++ excludes ∧
          ∃ names, tree.HoldsComponent excludes names ∧ path = names.foldl join root := by
    rw [List.mem_mergeSort, mem_candidates_iff hwalk hproper hdirectory]
  refine ⟨_, gatherFilesBy_eq hroot, ?_, ?_⟩
  · rw [gatherFiles, gatherFilesBy_eq hroot]
    refine congrArg some (eq_of_pairwise_order (hsorted Entry.isThorough_walk) (hsorted hwalk) ?_)
    exact fun path ↦ (hmem Entry.isThorough_walk path).trans (hmem hwalk path).symm
  · split
    · next hexcluded =>
      exact List.eq_nil_iff_forall_not_mem.2 fun path hpath ↦ ((hmem hwalk path).1 hpath).1 hexcluded
    · next hopen =>
      refine ⟨hsorted hwalk, ?_, fun {path} ↦ (hmem hwalk path).trans (and_iff_right hopen)⟩
      refine (List.mergeSort_perm _ _).nodup_iff.2
        ((pairwise_parts_candidates hwalk hproper hdirectory).imp ?_)
      exact fun hne heq ↦ hne (congrArg parts heq)

end

/-! ## A directory of an unlucky name -/

/-- Exported files, with a note and the copy of an old one beside them. -/
def exportedTree : Entry :=
  .directory
    [("src", .directory
      [("B.CLS", .file ⟨#[]⟩), ("old", .directory [("C.bas", .file ⟨#[]⟩)])]),
    ("notes.txt", .file ⟨#[]⟩), ("A.bas", .file ⟨#[]⟩)]

theorem isProper_exportedTree : exportedTree.IsProper := by
  have hfile : (Entry.file ⟨#[]⟩).IsProper := .file _
  have hold : (Entry.directory [("C.bas", .file ⟨#[]⟩)]).IsProper :=
    .directory (by decide) (by decide +kernel) (by simp [hfile])
  have hsource : (Entry.directory [("B.CLS", .file ⟨#[]⟩),
      ("old", .directory [("C.bas", .file ⟨#[]⟩)])]).IsProper :=
    .directory (by decide) (by decide +kernel) (by simp [hfile, hold])
  exact .directory (by decide) (by decide +kernel) (by simp [hfile, hsource])

/-- Below a directory with an ordinary name the old copy alone is left out. -/
theorem discovery_misses_nothing_below_export :
    FindsAll exportedTree "export" ["old"] ["export/A.bas", "export/src/B.CLS"] := by
  have hroot : FileView.ofPlaces [("export", exportedTree)] "export" = some exportedTree := rfl
  obtain ⟨found, -, hfound, hall⟩ :=
    discovery_misses_nothing_below Entry.isThorough_walk hroot isProper_exportedTree rfl ["old"]
  rw [if_neg (by decide +kernel)] at hall
  have hcandidates : candidates Entry.walk exportedTree "export" ["old"] =
      ["export/src/B.CLS", "export/A.bas"] := by
    decide +kernel
  have horder : Files.order "export/src/B.CLS" "export/A.bas" = .gt := by
    decide +kernel
  have hgathered : gatherFiles (.ofPlaces [("export", exportedTree)]) "export" ["old"] =
      some ["export/A.bas", "export/src/B.CLS"] := by
    rw [gatherFiles, gatherFilesBy_eq hroot, hcandidates]
    simp [List.mergeSort, List.MergeSort.Internal.splitInTwo, horder]
  cases hgathered.symm.trans hfound
  exact hall

/-- Files below a directory are not found because of the name of that directory. -/
theorem excluded_root_hides_components :
    gatherFiles (.ofPlaces [("target", exportedTree)]) "target" [] = some [] ∧
      exportedTree.HoldsComponent [] ["src", "B.CLS"] ∧ ¬FindsAll exportedTree "target" [] [] := by
  have hholds : exportedTree.HoldsComponent [] ["src", "B.CLS"] :=
    ⟨⟨_, rfl, rfl⟩, ⟨"B.CLS", rfl, by decide +kernel⟩, by decide +kernel⟩
  refine ⟨by decide +kernel, hholds, fun hall ↦ ?_⟩
  cases hall.mem_iff.2 ⟨_, hholds, rfl⟩

end VbaLint
