import Mathlib.Data.List.Induction
import VbaLint.Pass.Runner
import VbaLint.Proofs.Text.Lowering

/-!
# Which severity setting counts

A configuration keeps one severity for each spelling of the name of a rule, but a pass asks for the
name in any case. Of several spellings the one that is last in code point order counts, whichever was
set last; among the settings in that spelling the last one counts.
-/

namespace VbaLint

open Text

/-! ## Tables by name -/

namespace NameTable

variable {α : Type}

theorem lookup_cons_eq_ite (entry : String × α) (entries : List (String × α)) (name : String) :
    (entry :: entries).lookup name =
      if name = entry.1 then some entry.2 else entries.lookup name := by
  rw [List.lookup_cons]
  by_cases heq : name = entry.1
  · rw [if_pos heq, beq_iff_eq.2 heq]
  · rw [if_neg heq, beq_false_of_ne heq]

theorem lookup_insertEntry (name other : String) (value : α) (entries : List (String × α)) :
    (insertEntry name value entries).lookup other =
      if other = name then some value else entries.lookup other := by
  induction entries with
  | nil => exact lookup_cons_eq_ite (name, value) [] other
  | cons first rest ih =>
    rw [insertEntry]
    split
    · exact lookup_cons_eq_ite _ _ _
    split
    · next hname =>
      simp only [lookup_cons_eq_ite, ← hname]
      split <;> rfl
    · next hname =>
      simp only [lookup_cons_eq_ite, ih]
      by_cases hfirst : other = first.1
      · have hne : other ≠ name := fun heq ↦ hname (heq.symm.trans hfirst)
        rw [if_pos hfirst, if_neg hne, if_pos hfirst]
      · rw [if_neg hfirst, if_neg hfirst]

theorem find?_insert (table : NameTable α) (name other : String) (value : α) :
    (table.insert name value).find? other =
      if other = name then some value else table.find? other :=
  lookup_insertEntry name other value table.entries

/-- Of several values put in under one name the last is found. -/
theorem find?_foldl_insert (table : NameTable α) (entries : List (String × α)) (name : String) :
    (entries.foldl (fun table entry ↦ table.insert entry.1 entry.2) table).find? name =
      (entries.reverse.lookup name).or (table.find? name) := by
  induction entries using List.reverseRecOn with
  | nil => rfl
  | append_singleton entries entry ih =>
    rw [List.foldl_append, List.foldl_cons, List.foldl_nil, find?_insert, ih,
      List.reverse_append, List.reverse_singleton, List.singleton_append, lookup_cons_eq_ite]
    split <;> rfl

theorem find?_ofList (entries : List (String × α)) (name : String) :
    (ofList entries).find? name = entries.reverse.lookup name := by
  rw [ofList, find?_foldl_insert]
  exact Option.or_none

/-- A table may be searched from either end. -/
theorem find?_eq_lookup_reverse (table : NameTable α) (name : String) :
    table.find? name = table.entries.reverse.lookup name := by
  obtain ⟨entries, ordered⟩ := table
  rw [find?]
  induction ordered with
  | nil => rfl
  | @cons first rest hfirst hrest ih =>
    rw [List.reverse_cons, List.lookup_append, ← ih, lookup_cons_eq_ite, lookup_cons_eq_ite]
    split
    · next heq =>
      have hnone : rest.lookup name = none := by
        refine List.lookup_eq_none_iff.2 fun other hother ↦ bne_iff_ne.2 fun hsame ↦ ?_
        have hlt := hfirst other hother
        rw [← heq, ← hsame] at hlt
        exact String.lt_irrefl name hlt
      rw [hnone]
      rfl
    · exact Option.or_none.symm

/-- The last entry under a name. -/
theorem lookup_reverse_eq_some_iff {entries : List (String × α)} {name : String} {value : α} :
    entries.reverse.lookup name = some value ↔
      ∃ before after, entries = before ++ (name, value) :: after ∧
        ∀ other ∈ after, other.1 ≠ name := by
  constructor
  · intro hfound
    induction entries using List.reverseRecOn with
    | nil => cases hfound
    | append_singleton entries entry ih =>
      rw [List.reverse_append, List.reverse_singleton, List.singleton_append,
        lookup_cons_eq_ite] at hfound
      split at hfound
      · next heq =>
        cases hfound
        subst heq
        exact ⟨entries, [], rfl, fun other hother ↦ absurd hother List.not_mem_nil⟩
      · next hne =>
        obtain ⟨before, after, rfl, hafter⟩ := ih hfound
        refine ⟨before, after ++ [entry], by simp, ?_⟩
        intro other hother
        rcases List.mem_append.1 hother with hother | hother
        · exact hafter other hother
        · rw [List.mem_singleton.1 hother]
          exact Ne.symm hne
  · rintro ⟨before, after, rfl, hafter⟩
    have hnone : after.reverse.lookup name = none :=
      List.lookup_eq_none_iff.2 fun other hother ↦
        bne_iff_ne.2 (Ne.symm (hafter other (List.mem_reverse.1 hother)))
    rw [List.reverse_append, List.reverse_cons, List.append_assoc, List.lookup_append, hnone,
      List.singleton_append, lookup_cons_eq_ite, if_pos rfl]
    rfl

/-- The entries of a table are what is found in it. -/
theorem find?_eq_some_iff {table : NameTable α} {name : String} {value : α} :
    table.find? name = some value ↔ (name, value) ∈ table.entries := by
  rw [find?_eq_lookup_reverse, lookup_reverse_eq_some_iff]
  constructor
  · rintro ⟨before, after, hentries, -⟩
    rw [hentries]
    exact List.mem_append_right before List.mem_cons_self
  · intro hmem
    obtain ⟨before, after, hentries⟩ := List.append_of_mem hmem
    refine ⟨before, after, hentries, fun other hother hsame ↦ ?_⟩
    have hordered := table.ordered
    rw [hentries] at hordered
    have hlt := (List.pairwise_cons.1 (List.pairwise_append.1 hordered).2.1).1 other hother
    exact String.lt_irrefl name (hsame ▸ hlt)

end NameTable

theorem lowerAsciiString_eq_of_sameName {left right : String} (h : sameName left right = true) :
    lowerAsciiString left = lowerAsciiString right :=
  congrArg String.ofList (beq_iff_eq.1 h)

/-! ## Settings -/

/-- Of some severity settings for a rule, one counts: it names the rule in the spelling that is last
in code point order, and it is the last one in that spelling. -/
structure Decides (settings : List (String × Severity)) (rule : String)
    (setting : String × Severity) : Prop where
  names : sameName setting.1 rule = true
  greatest : ∀ other ∈ settings, sameName other.1 rule = true → other.1 ≤ setting.1
  last : ∃ before after, settings = before ++ setting :: after ∧
    ∀ other ∈ after, other.1 ≠ setting.1

namespace Config

def setSeverities (config : Config) (calls : List (String × Severity)) : Config :=
  calls.foldl (fun config call ↦ config.setSeverity call.1 call.2) config

theorem severity_setSeverities (config : Config) (calls : List (String × Severity)) :
    (config.setSeverities calls).severity =
      calls.foldl (fun table call ↦ table.insert call.1 call.2) config.severity := by
  unfold setSeverities
  induction calls generalizing config with
  | nil => rfl
  | cons call rest ih => exact ih (config.setSeverity call.1 call.2)

/-- A spelling keeps the level that was last set in it. -/
theorem mem_entries_setSeverities {config : Config} {calls : List (String × Severity)}
    {setting : String × Severity} :
    setting ∈ (config.setSeverities calls).severity.entries ↔
      ∃ before after, config.severity.entries ++ calls = before ++ setting :: after ∧
        ∀ other ∈ after, other.1 ≠ setting.1 := by
  rw [← NameTable.find?_eq_some_iff, severity_setSeverities, NameTable.find?_foldl_insert,
    NameTable.find?_eq_lookup_reverse, ← List.lookup_append, ← List.reverse_append,
    NameTable.lookup_reverse_eq_some_iff]

theorem exists_mem_entries_setSeverities {config : Config} {calls : List (String × Severity)}
    {setting : String × Severity} (h : setting ∈ config.severity.entries ++ calls) :
    ∃ level, (setting.1, level) ∈ (config.setSeverities calls).severity.entries := by
  cases hfound : (config.severity.entries ++ calls).reverse.lookup setting.1 with
  | some level =>
    exact ⟨level, mem_entries_setSeverities.2 (NameTable.lookup_reverse_eq_some_iff.1 hfound)⟩
  | none =>
    have hnone := List.lookup_eq_none_iff.1 hfound setting (List.mem_reverse.2 h)
    simp at hnone

/-- What a pass finds for a rule in the table of severities is the setting that counts. -/
theorem find?_overrides_setSeverities {config : Config} {calls : List (String × Severity)}
    {rule : String} {level : Severity} :
    (config.setSeverities calls).overrides.find? (lowerAsciiString rule) = some level ↔
      ∃ name, Decides (config.severity.entries ++ calls) rule (name, level) := by
  have hordered := (config.setSeverities calls).severity.ordered
  rw [overrides, NameTable.find?_ofList, NameTable.lookup_reverse_eq_some_iff]
  constructor
  · rintro ⟨before, after, hmap, hafter⟩
    obtain ⟨first, second, hentries, rfl, hsecond⟩ := List.map_eq_append_iff.1 hmap
    obtain ⟨entry, rest, rfl, hentry, rfl⟩ := List.map_eq_cons_iff.1 hsecond
    obtain ⟨hname, rfl⟩ := Prod.mk.inj hentry
    have hmem : entry ∈ (config.setSeverities calls).severity.entries := by
      rw [hentries]
      exact List.mem_append_right first List.mem_cons_self
    refine ⟨entry.1, sameName_of_lowerAsciiString_eq hname, ?_, mem_entries_setSeverities.1 hmem⟩
    -- Behind the entry no name agrees, and before it all spellings are smaller.
    intro other hother hagrees
    obtain ⟨level, hlisted⟩ := exists_mem_entries_setSeverities hother
    rw [hentries] at hlisted hordered
    obtain ⟨-, -, hlt⟩ := List.pairwise_append.1 hordered
    rcases List.mem_append.1 hlisted with hbefore | hbehind
    · exact Std.le_of_lt (hlt _ hbefore entry List.mem_cons_self)
    rcases List.mem_cons.1 hbehind with rfl | hbehind
    · exact String.le_refl _
    · exact absurd (lowerAsciiString_eq_of_sameName hagrees)
        (hafter _ (List.mem_map_of_mem hbehind))
  · rintro ⟨name, hdecides⟩
    have hmem : (name, level) ∈ (config.setSeverities calls).severity.entries :=
      mem_entries_setSeverities.2 hdecides.last
    obtain ⟨before, after, hentries⟩ := List.append_of_mem hmem
    rw [hentries] at hordered
    have hlt := (List.pairwise_cons.1 (List.pairwise_append.1 hordered).2.1).1
    refine ⟨before.map fun entry ↦ (lowerAsciiString entry.1, entry.2),
      after.map fun entry ↦ (lowerAsciiString entry.1, entry.2), ?_, ?_⟩
    · rw [hentries, List.map_append, List.map_cons,
        lowerAsciiString_eq_of_sameName hdecides.names]
    · intro other hother hsame
      obtain ⟨entry, hentry, rfl⟩ := List.mem_map.1 hother
      have hlisted : entry ∈ (config.setSeverities calls).severity.entries := by
        rw [hentries]
        exact List.mem_append_right before (List.mem_cons_of_mem _ hentry)
      obtain ⟨first, second, hsettings, -⟩ := mem_entries_setSeverities.1 hlisted
      have hle := hdecides.greatest entry
        (hsettings ▸ List.mem_append_right first List.mem_cons_self)
        (sameName_of_lowerAsciiString_eq hsame)
      exact String.not_lt.2 hle (hlt entry hentry)

end Config

/-! ## The settings that count -/

section

variable {settings : List (String × Severity)} {rule : String}

/-- A name of the rule is the name in none of the settings of other rules. -/
theorem ne_of_names_others (hothers : ∀ other ∈ settings, sameName other.1 rule = false)
    {name : String} (hname : sameName name rule = true) : ∀ other ∈ settings, other.1 ≠ name := by
  intro other hother hsame
  have hfalse := hothers other hother
  rw [hsame, hname] at hfalse
  cases hfalse

/-- If a setting names the rule, one counts. -/
theorem exists_decides (config : Config) (calls : List (String × Severity))
    (h : ∃ setting ∈ config.severity.entries ++ calls, sameName setting.1 rule = true) :
    ∃ setting, Decides (config.severity.entries ++ calls) rule setting := by
  obtain ⟨setting, hsetting, hnames⟩ := h
  cases hfound : (config.setSeverities calls).overrides.find? (lowerAsciiString rule) with
  | some level =>
    obtain ⟨name, hdecides⟩ := Config.find?_overrides_setSeverities.1 hfound
    exact ⟨(name, level), hdecides⟩
  | none =>
    obtain ⟨level, hlisted⟩ := Config.exists_mem_entries_setSeverities hsetting
    rw [Config.overrides, NameTable.find?_ofList, List.lookup_eq_none_iff] at hfound
    have hne := hfound _ (List.mem_reverse.2 (List.mem_map_of_mem hlisted))
    exact absurd (lowerAsciiString_eq_of_sameName hnames).symm (bne_iff_ne.1 hne)

/-- The last setting of a rule counts unless an earlier one has a greater spelling. -/
theorem decides_last_iff {before after : List (String × Severity)} {setting : String × Severity}
    (hnames : sameName setting.1 rule = true)
    (hlast : ∀ other ∈ after, sameName other.1 rule = false) :
    Decides (before ++ setting :: after) rule setting ↔
      ∀ other ∈ before, sameName other.1 rule = true → other.1 ≤ setting.1 := by
  constructor
  · intro hdecides other hother
    exact hdecides.greatest other (List.mem_append_left _ hother)
  · intro hgreatest
    refine ⟨hnames, ?_, before, after, rfl, ne_of_names_others hlast hnames⟩
    intro other hother hagrees
    rcases List.mem_append.1 hother with hother | hother
    · exact hgreatest other hother hagrees
    rcases List.mem_cons.1 hother with rfl | hother
    · exact String.le_refl _
    · rw [hlast other hother] at hagrees
      cases hagrees

/-- Settings of other rules do not count. -/
theorem decides_append_iff {before after : List (String × Severity)} {setting : String × Severity}
    (hafter : ∀ other ∈ after, sameName other.1 rule = false) :
    Decides (before ++ after) rule setting ↔ Decides before rule setting := by
  constructor
  · rintro ⟨hnames, hgreatest, first, second, hsplit, hsecond⟩
    have hne := ne_of_names_others hafter hnames
    refine ⟨hnames, fun other hother ↦ hgreatest other (List.mem_append_left _ hother), ?_⟩
    -- The setting stands in the first part, since the second names other rules only.
    rcases List.append_eq_append_iff.1 hsplit with ⟨rest, hfirst, hrest⟩ | ⟨rest, hfirst, hrest⟩
    · have hmem : setting ∈ after := hrest ▸ List.mem_append_right rest List.mem_cons_self
      exact absurd rfl (hne setting hmem)
    · cases rest with
      | nil =>
        have hmem : setting ∈ after := by
          rw [List.nil_append] at hrest
          exact hrest ▸ List.mem_cons_self
        exact absurd rfl (hne setting hmem)
      | cons head rest =>
        obtain ⟨rfl, rfl⟩ := List.cons.inj hrest
        exact ⟨first, rest, hfirst, fun other hother ↦
          hsecond other (List.mem_append_left _ hother)⟩
  · rintro ⟨hnames, hgreatest, first, second, rfl, hsecond⟩
    refine ⟨hnames, ?_, first, second ++ after, by simp, ?_⟩
    · intro other hother hagrees
      rcases List.mem_append.1 hother with hother | hother
      · exact hgreatest other hother hagrees
      · rw [hafter other hother] at hagrees
        cases hagrees
    · intro other hother
      rcases List.mem_append.1 hother with hother | hother
      · exact hsecond other hother
      · exact ne_of_names_others hafter hnames other hother

end

/-- The severity of the findings of a rule, for every configuration with any severities set on top of
it. If a setting names the rule, the level is that of a setting that counts, and one does; if none
does, the rule has its own. Without a setting on top for the rule the configuration decides alone. The
last setting on top for the rule counts if and only if none before it, in the configuration or on top,
has a greater spelling of the name. -/
theorem severity_follows_spelling_order {σ : Type} (catalog : Catalog σ) (snapshot : Snapshot)
    (config : Config) (calls : List (String × Severity)) (info : RuleInfo) :
    let settings := config.severity.entries ++ calls
    let severity (config : Config) :=
      (PassContext.mk snapshot (Runner.ofCatalog catalog config).severities).severityOf info
    let names (setting : String × Severity) := sameName setting.1 info.name
    (∀ setting, Decides settings info.name setting →
      severity (config.setSeverities calls) = setting.2) ∧
    ((∃ setting ∈ settings, names setting = true) →
      ∃ setting, Decides settings info.name setting) ∧
    ((∀ setting ∈ settings, names setting = false) →
      severity (config.setSeverities calls) = info.defaultSeverity) ∧
    ((∀ call ∈ calls, names call = false) →
      severity (config.setSeverities calls) = severity config) ∧
    ∀ before call after, calls = before ++ call :: after → names call = true →
      (∀ other ∈ after, names other = false) →
      (Decides settings info.name call ↔
        ∀ other ∈ config.severity.entries ++ before, names other = true → other.1 ≤ call.1) := by
  intro settings severity names
  refine ⟨?_, exists_decides config calls, ?_, ?_, ?_⟩
  · intro setting hdecides
    have hfound := Config.find?_overrides_setSeverities.2 ⟨setting.1, hdecides⟩
    exact congrArg (·.getD info.defaultSeverity) hfound
  · intro hothers
    cases hfound : (config.setSeverities calls).overrides.find? (lowerAsciiString info.name) with
    | none => exact congrArg (·.getD info.defaultSeverity) hfound
    | some level =>
      obtain ⟨name, hnames, -, before, after, hsplit, -⟩ :=
        Config.find?_overrides_setSeverities.1 hfound
      have hmem : (name, level) ∈ settings := by
        change _ ∈ config.severity.entries ++ calls
        rw [hsplit]
        exact List.mem_append_right before List.mem_cons_self
      have hfalse := hothers (name, level) hmem
      exact absurd (hnames.symm.trans hfalse) (by decide)
  · intro hothers
    have hsame : (config.setSeverities calls).overrides.find? (lowerAsciiString info.name) =
        config.overrides.find? (lowerAsciiString info.name) := by
      ext level
      change _ ↔ (config.setSeverities []).overrides.find? (lowerAsciiString info.name) = some level
      rw [Config.find?_overrides_setSeverities, Config.find?_overrides_setSeverities,
        List.append_nil]
      exact exists_congr fun name ↦ decides_append_iff hothers
    exact congrArg (·.getD info.defaultSeverity) hsame
  · rintro before call after rfl hcall hothers
    have hsplit : settings = (config.severity.entries ++ before) ++ call :: after :=
      (List.append_assoc _ _ _).symm
    rw [hsplit]
    exact decides_last_iff hcall hothers

/-- A configuration has a level for a rule under its lowered name. Another level is set on top, under
the name as the rule has it, and the findings of the rule do not get it. -/
theorem setting_in_capitals_is_ignored :
    let config : Config := { Config.default with severity := .ofList [("optionbase", .warning)] }
    let call := ("OptionBase", Severity.error)
    let runner := Runner.ofCatalog .builtIn (config.setSeverities [call])
    let context : PassContext := ⟨.ofModules 1 "VBAProject" [], runner.severities⟩
    sameName call.1 OptionBase.info.name = true ∧
      context.severityOf OptionBase.info = .warning ∧ call.2 ≠ .warning := by
  decide +kernel

end VbaLint
