/-!
# Tables in key order

Entries under text keys, each key once and in ascending order of code points. Everything that is
listed or written in key order is such a table: the context of a step, the members of a JSON
object, the stored runs, the entries of a directory.

`Entries.insert` works on a bare list of entries, for the types that nest one inside themselves;
`Table` adds the proof that the list is in order. `Entries.replace` serves entries in any order: if
each key is there once before, it is afterwards.
-/

namespace BudgetedRun

/-- A list of entries, by key. -/
abbrev Entries (α : Type u) := List (String × α)

namespace Entries

variable {α : Type u}

/-- Every key is below all later ones. -/
def Ascending (entries : Entries α) : Prop :=
  entries.Pairwise fun a b => a.1 < b.1

/-- Put a value under a key, in place of the one that is there. -/
def insert (key : String) (value : α) : Entries α → Entries α
  | [] => [(key, value)]
  | (k, v) :: rest =>
    if key < k then (key, value) :: (k, v) :: rest
    else if key = k then (key, value) :: rest
    else (k, v) :: insert key value rest

def find? (key : String) : Entries α → Option α
  | [] => none
  | (k, v) :: rest => if key = k then some v else find? key rest

/-- Take the entry of a key out. -/
def erase (key : String) : Entries α → Entries α
  | [] => []
  | (k, v) :: rest => if key = k then rest else (k, v) :: erase key rest

/-- Put a value under a key, in place of the one that is there, in entries of any order. -/
def replace (key : String) (value : α) (entries : Entries α) : Entries α :=
  insert key value (erase key entries)

/-- The entries in key order; of several values under one key the last one stays. -/
def sorted (entries : Entries α) : Entries α :=
  entries.foldl (fun table entry => insert entry.1 entry.2 table) []

/-- What is found after an insertion. -/
theorem find?_insert {key other : String} {value : α} {entries : Entries α} :
    find? other (insert key value entries) =
      if other = key then some value else find? other entries := by
  induction entries with
  | nil => simp [insert, find?]
  | cons entry rest ih =>
    obtain ⟨k, v⟩ := entry
    simp only [insert]
    split
    · simp [find?]
    · split
      · next h => subst h; simp only [find?]; split <;> rfl
      · next h =>
        simp only [find?, ih]
        by_cases hk : other = k
        · subst hk; simp [Ne.symm h]
        · simp [hk]

/-- The keys are those under which something is found. -/
theorem mem_map_key {key : String} {entries : Entries α} :
    key ∈ entries.map (·.1) ↔ find? key entries ≠ none := by
  induction entries with
  | nil => simp [find?]
  | cons entry rest ih =>
    obtain ⟨k, v⟩ := entry
    rw [List.map_cons, List.mem_cons, ih, find?]
    split
    · next h => simp [h]
    · next h => simp [h]

/-- What is found is one of the entries. -/
theorem mem_of_find? {key : String} {value : α} {entries : Entries α}
    (found : find? key entries = some value) : (key, value) ∈ entries := by
  induction entries with
  | nil => cases found
  | cons entry rest ih =>
    obtain ⟨k, v⟩ := entry
    rw [find?] at found
    split at found
    · rename_i own
      cases found
      exact own ▸ List.mem_cons_self
    · exact List.mem_cons_of_mem _ (ih found)

/-- An insertion brings no entry but its own. -/
theorem mem_insert {key : String} {value : α} {entries : Entries α} {e : String × α}
    (member : e ∈ insert key value entries) : e = (key, value) ∨ e ∈ entries := by
  induction entries with
  | nil => exact .inl (List.mem_singleton.mp member)
  | cons entry rest ih =>
    obtain ⟨k, v⟩ := entry
    rw [insert] at member
    split at member
    · exact List.mem_cons.mp member
    · split at member
      · exact (List.mem_cons.mp member).imp_right (List.mem_cons_of_mem _)
      · rcases List.mem_cons.mp member with rfl | later
        · exact .inr List.mem_cons_self
        · exact (ih later).imp_right (List.mem_cons_of_mem _)

/-- An insertion brings no key but its own. -/
theorem mem_insert_key {key : String} {value : α} {entries : Entries α} {e : String × α}
    (h : e ∈ insert key value entries) : e.1 = key ∨ e ∈ entries :=
  (mem_insert h).imp_left (congrArg Prod.fst)

/-- An insertion keeps the order. -/
theorem Ascending.insert {key : String} {value : α} {entries : Entries α}
    (h : entries.Ascending) : (Entries.insert key value entries).Ascending := by
  induction entries with
  | nil => simp [Entries.insert, Ascending]
  | cons entry rest ih =>
    obtain ⟨k, v⟩ := entry
    rw [Ascending, List.pairwise_cons] at h
    simp only [Entries.insert]
    split
    · next hk =>
      rw [Ascending, List.pairwise_cons]
      refine ⟨fun e he => ?_, List.pairwise_cons.2 h⟩
      rcases List.mem_cons.1 he with rfl | he
      · exact hk
      · exact String.lt_trans hk (h.1 e he)
    · next hk =>
      split
      · next heq => subst heq; exact List.pairwise_cons.2 h
      · next hne =>
        rw [Ascending, List.pairwise_cons]
        refine ⟨fun e he => ?_, ih h.2⟩
        rcases mem_insert_key he with heq | he
        · rw [heq]
          exact Std.not_le.1 fun hle => hne (String.le_antisymm (Std.not_lt.1 hk) hle).symm
        · exact h.1 e he

/-- Sorting gives entries in order. -/
theorem ascending_sorted (entries : Entries α) : (sorted entries).Ascending := by
  suffices h : ∀ table : Entries α, table.Ascending →
      (entries.foldl (fun table entry => insert entry.1 entry.2 table) table).Ascending from
    h [] List.Pairwise.nil
  induction entries with
  | nil => exact fun _ h => h
  | cons entry rest ih => exact fun _ h => ih _ h.insert

/-- Sorting brings no entries. -/
theorem mem_of_mem_sorted {entries : Entries α} {e : String × α} (member : e ∈ sorted entries) :
    e ∈ entries := by
  suffices among : ∀ table : Entries α,
      e ∈ entries.foldl (fun table entry => insert entry.1 entry.2 table) table →
        e ∈ table ∨ e ∈ entries from
    (among [] member).resolve_left List.not_mem_nil
  clear member
  induction entries with
  | nil => exact fun _ member => .inl member
  | cons entry rest ih =>
    intro table member
    rcases ih _ member with inserted | later
    · rcases mem_insert inserted with rfl | earlier
      · exact .inr List.mem_cons_self
      · exact .inl earlier
    · exact .inr (List.mem_cons_of_mem _ later)

/-- Entries in order have each key once. -/
theorem Ascending.nodup {entries : Entries α} (ascending : entries.Ascending) :
    (entries.map (·.1)).Nodup := by
  have keys : (entries.map (·.1)).Pairwise (· < ·) := List.pairwise_map.mpr ascending
  exact keys.imp fun below same => absurd (same ▸ below) (String.lt_irrefl _)

section replace

variable {key other : String} {value : α} {entries : Entries α} {e : String × α}

/-- Taking an entry out leaves the others in their order. -/
theorem erase_sublist : (erase key entries).Sublist entries := by
  induction entries with
  | nil => exact .slnil
  | cons entry rest ih =>
    obtain ⟨k, v⟩ := entry
    rw [erase]
    split
    · exact List.sublist_cons_self _ _
    · exact ih.cons_cons _

/-- Taking an entry out changes what is found under its key only. -/
theorem find?_erase_of_ne (another : other ≠ key) :
    find? other (erase key entries) = find? other entries := by
  induction entries with
  | nil => rfl
  | cons entry rest ih =>
    obtain ⟨k, v⟩ := entry
    rw [erase]
    by_cases own : key = k
    · rw [if_pos own, find?, if_neg (own ▸ another)]
    · rw [if_neg own, find?, find?, ih]

/-- If each key is there once, nothing is left under a key whose entry was taken out. -/
theorem not_mem_erase_key (nodup : (entries.map (·.1)).Nodup) :
    key ∉ (erase key entries).map (·.1) := by
  induction entries with
  | nil => exact List.not_mem_nil
  | cons entry rest ih =>
    obtain ⟨k, v⟩ := entry
    obtain ⟨new, nodup⟩ := List.nodup_cons.mp nodup
    rw [erase]
    by_cases own : key = k
    · rw [if_pos own]
      exact own ▸ new
    · rw [if_neg own]
      exact fun member => (List.mem_cons.mp member).elim own (ih nodup)

/-- A value under a new key is put among the others. -/
theorem insert_perm (new : key ∉ entries.map (·.1)) :
    (insert key value entries).Perm ((key, value) :: entries) := by
  induction entries with
  | nil => exact .refl _
  | cons entry rest ih =>
    obtain ⟨k, v⟩ := entry
    obtain ⟨another, new⟩ := not_or.mp (mt List.mem_cons.mpr new)
    rw [insert, if_neg another]
    split
    · exact .refl _
    · exact ((ih new).cons _).trans (.swap _ _ _)

/-- What is found after a value was put under a key. -/
theorem find?_replace :
    find? other (replace key value entries) =
      if other = key then some value else find? other entries := by
  rw [replace, find?_insert]
  split
  · rfl
  · rename_i another
    exact find?_erase_of_ne another

/-- Putting a value under a key brings no entry but this one. -/
theorem mem_replace (member : e ∈ replace key value entries) : e = (key, value) ∨ e ∈ entries :=
  (mem_insert member).imp_right fun kept => erase_sublist.subset kept

/-- If each key is there once, so it is after a value was put under one of them. -/
theorem nodup_replace (nodup : (entries.map (·.1)).Nodup) :
    ((replace key value entries).map (·.1)).Nodup := by
  have new : key ∉ (erase key entries).map (·.1) := not_mem_erase_key nodup
  have keys := (@insert_perm _ key value _ new).map (·.1)
  exact keys.nodup_iff.mpr (List.nodup_cons.mpr ⟨new, nodup.sublist (erase_sublist.map _)⟩)

end replace

end Entries

/-- Entries in ascending order of their keys. -/
structure Table (α : Type) where
  entries : Entries α
  ascending : entries.Ascending

namespace Table

variable {α : Type}

def empty : Table α := ⟨[], List.Pairwise.nil⟩

instance : Inhabited (Table α) := ⟨empty⟩

/-- Tables with the same entries are the same. -/
@[ext] theorem ext {t u : Table α} (h : t.entries = u.entries) : t = u := by
  cases t; cases u; cases h; rfl

instance [DecidableEq α] : DecidableEq (Table α) := fun t u =>
  decidable_of_iff (t.entries = u.entries) ⟨ext, fun h => h ▸ rfl⟩

/-- Put a value under a key, in place of the one that is there. -/
def insert (t : Table α) (key : String) (value : α) : Table α :=
  ⟨t.entries.insert key value, t.ascending.insert⟩

def get? (t : Table α) (key : String) : Option α := t.entries.find? key

def keys (t : Table α) : List String := t.entries.map (·.1)

/-- The table of a list of entries; of several values under one key the last one stays. -/
def ofList (entries : List (String × α)) : Table α :=
  ⟨Entries.sorted entries, Entries.ascending_sorted entries⟩

/-- What a table holds after an insertion. -/
@[simp] theorem get?_insert {t : Table α} {key other : String} {value : α} :
    (t.insert key value).get? other = if other = key then some value else t.get? other :=
  Entries.find?_insert

/-- The keys of a table are those under which something is found. -/
theorem mem_keys {t : Table α} {key : String} : key ∈ t.keys ↔ t.get? key ≠ none :=
  Entries.mem_map_key

/-- The keys of a table are in ascending order, each once. -/
theorem keys_ascending (t : Table α) : t.keys.Pairwise (· < ·) :=
  List.pairwise_map.2 t.ascending

end Table

end BudgetedRun
