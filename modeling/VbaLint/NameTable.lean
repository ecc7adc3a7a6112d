/-!
# Tables by name

A table holds at most one value for each name and lists its entries in code point order of the names.
-/

namespace VbaLint

/-- A table of values by name. -/
structure NameTable (α : Type) where
  entries : List (String × α)
  ordered : entries.Pairwise fun left right ↦ left.1 < right.1
  deriving DecidableEq

namespace NameTable

variable {α : Type}

def empty : NameTable α := ⟨[], .nil⟩

instance : Inhabited (NameTable α) := ⟨empty⟩

/-- Put an entry into an ordered list, in place of one of the same name. -/
def insertEntry (name : String) (value : α) : List (String × α) → List (String × α)
  | [] => [(name, value)]
  | entry :: rest =>
    if name < entry.1 then (name, value) :: entry :: rest
    else if name = entry.1 then (name, value) :: rest
    else entry :: insertEntry name value rest

theorem mem_insertEntry {name : String} {value : α} {entries : List (String × α)}
    {entry : String × α} (h : entry ∈ insertEntry name value entries) :
    entry = (name, value) ∨ entry ∈ entries := by
  induction entries with
  | nil => exact .inl (List.mem_singleton.1 h)
  | cons first rest ih =>
    unfold insertEntry at h
    split at h
    · exact (List.mem_cons.1 h)
    split at h
    · exact (List.mem_cons.1 h).imp_right (List.mem_cons_of_mem _)
    · rcases List.mem_cons.1 h with h | h
      · exact .inr (h ▸ List.mem_cons_self)
      · exact (ih h).imp_right (List.mem_cons_of_mem _)

theorem ordered_insertEntry {name : String} {value : α} {entries : List (String × α)}
    (ordered : entries.Pairwise fun left right ↦ left.1 < right.1) :
    (insertEntry name value entries).Pairwise fun left right ↦ left.1 < right.1 := by
  induction ordered with
  | nil => exact List.pairwise_singleton _ _
  | @cons first rest hfirst hrest ih =>
    unfold insertEntry
    split
    · next hlt =>
      refine .cons ?_ (.cons hfirst hrest)
      intro other hother
      rcases List.mem_cons.1 hother with rfl | hother
      · exact hlt
      · exact String.lt_trans hlt (hfirst other hother)
    split
    · next heq => exact .cons (fun other hother ↦ heq ▸ hfirst other hother) hrest
    · next hlt hne =>
      refine .cons ?_ ih
      intro other hother
      rcases mem_insertEntry hother with rfl | hother
      · rcases String.le_total first.1 name with h | h
        · exact Std.lt_of_le_of_ne h (Ne.symm hne)
        · exact absurd (Std.lt_of_le_of_ne h hne) hlt
      · exact hfirst other hother

def insert (table : NameTable α) (name : String) (value : α) : NameTable α :=
  ⟨insertEntry name value table.entries, ordered_insertEntry table.ordered⟩

/-- The table of some entries; of two with one name the later counts. -/
def ofList (entries : List (String × α)) : NameTable α :=
  entries.foldl (fun table entry ↦ table.insert entry.1 entry.2) empty

theorem mem_foldl_insert {entries : List (String × α)} {table : NameTable α}
    {entry : String × α}
    (h : entry ∈
      (entries.foldl (fun table entry ↦ table.insert entry.1 entry.2) table).entries) :
    entry ∈ table.entries ∨ entry ∈ entries := by
  induction entries generalizing table with
  | nil => exact .inl h
  | cons first rest ih =>
    rcases ih h with hinsert | hrest
    · rcases mem_insertEntry hinsert with rfl | htable
      · exact .inr List.mem_cons_self
      · exact .inl htable
    · exact .inr (List.mem_cons_of_mem first hrest)

theorem mem_ofList {entries : List (String × α)} {entry : String × α}
    (h : entry ∈ (ofList entries).entries) : entry ∈ entries :=
  (mem_foldl_insert h).resolve_left List.not_mem_nil

def find? (table : NameTable α) (name : String) : Option α := table.entries.lookup name

def names (table : NameTable α) : List String := table.entries.map (·.1)

end NameTable

end VbaLint
