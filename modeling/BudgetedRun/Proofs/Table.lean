import BudgetedRun.Table

/-!
# Entries by their keys

Entries in key order are determined by what is found under each key (`Entries.Ascending.ext`), so
they are found in order again after they were put in order (`Entries.Ascending.sorted_eq`). Entries
with distinct keys hold the same after they were put in order (`Entries.find?_sorted`).
-/

namespace BudgetedRun

namespace Entries

variable {α β : Type} {entries others : Entries α} {key : String} {value : α} {e : String × α}

/-- Nothing is found under what is no key. -/
theorem find?_eq_none_iff : find? key entries = none ↔ key ∉ entries.map (·.1) := by
  rw [mem_map_key, ne_eq, Decidable.not_not]

/-- If no two entries have one key, each is found under its key. -/
theorem find?_of_mem (distinct : (entries.map (·.1)).Nodup) (member : e ∈ entries) :
    find? e.1 entries = some e.2 := by
  induction entries with
  | nil => cases member
  | cons entry rest ih =>
      obtain ⟨k, v⟩ := entry
      obtain ⟨new, distinct⟩ := List.nodup_cons.mp distinct
      rw [find?]
      rcases List.mem_cons.mp member with rfl | later
      · exact if_pos rfl
      · rw [if_neg fun own => new (List.mem_map.mpr ⟨e, later, own⟩)]
        exact ih distinct later

/-- What is found among the entries whose keys are of some kind. -/
theorem find?_filter (p : String → Bool) (entries : Entries α) (key : String) :
    find? key (entries.filter fun e => p e.1) = if p key then find? key entries else none := by
  induction entries with
  | nil => split <;> rfl
  | cons entry rest ih =>
      obtain ⟨k, v⟩ := entry
      rw [List.filter_cons, find?]
      by_cases own : key = k
      · subst own
        cases kept : p key with
        | false => simpa only [kept, Bool.false_eq_true, ↓reduceIte] using ih
        | true => simp only [↓reduceIte, find?]
      · rw [if_neg own]
        cases p k with
        | false => exact ih
        | true => rwa [if_pos rfl, find?, if_neg own]

/-- In two lists of entries the first one goes first. -/
theorem find?_append (entries others : Entries α) (key : String) :
    find? key (entries ++ others) = (find? key entries).or (find? key others) := by
  induction entries with
  | nil => exact Option.none_or.symm
  | cons entry rest ih =>
      rw [List.cons_append, find?, find?, ih]
      split <;> rfl

/-- What is found after a change of all values is the changed value. -/
theorem find?_map (f : α → β) (entries : Entries α) (key : String) :
    find? key (entries.map fun e => (e.1, f e.2)) = (find? key entries).map f := by
  induction entries with
  | nil => rfl
  | cons entry rest ih =>
      rw [List.map_cons, find?, find?, ih]
      split <;> rfl

/-- If no two entries have one key, all are found after sorting too. -/
theorem find?_sorted (distinct : (entries.map (·.1)).Nodup) (key : String) :
    find? key (sorted entries) = find? key entries := by
  suffices all : ∀ table : Entries α,
      find? key (entries.foldl (fun table entry => insert entry.1 entry.2 table) table) =
        (find? key entries).or (find? key table) from
    (all []).trans (Option.or_none)
  induction entries with
  | nil => exact fun _ => rfl
  | cons entry rest ih =>
      intro table
      obtain ⟨k, v⟩ := entry
      obtain ⟨new, distinct⟩ := List.nodup_cons.mp distinct
      rw [List.foldl_cons, ih distinct, find?_insert, find?]
      by_cases own : key = k
      · rw [if_pos own, if_pos own, own, find?_eq_none_iff.mpr new]
        rfl
      · rw [if_neg own, if_neg own]

namespace Ascending

/-- In order, what is found under a key is the entry that has it. -/
theorem find?_eq_some_iff (ascending : entries.Ascending) :
    find? key entries = some value ↔ (key, value) ∈ entries :=
  ⟨mem_of_find?, find?_of_mem ascending.nodup⟩

/-- Entries in order are the same if the same is found under each key. -/
theorem ext (first : entries.Ascending) (second : others.Ascending)
    (same : ∀ key, find? key entries = find? key others) : entries = others := by
  have among : ∀ e, e ∈ entries ↔ e ∈ others := fun e => by
    rw [← first.find?_eq_some_iff, same, second.find?_eq_some_iff]
  refine List.Perm.eq_of_pairwise ?_ first second ?_
  · intro a b _ _ below above
    exact absurd (String.lt_trans below above) (String.lt_irrefl _)
  · have distinct {l : Entries α} (ascending : l.Ascending) : l.Nodup :=
      ascending.imp fun below same => absurd (same ▸ below) (String.lt_irrefl _)
    exact (List.perm_ext_iff_of_nodup (distinct first) (distinct second)).mpr among

/-- Entries that are in order already are left as they are. -/
theorem sorted_eq (ascending : entries.Ascending) : sorted entries = entries :=
  (ascending_sorted entries).ext ascending (find?_sorted ascending.nodup)

/-- Some of the entries in ascending order are in ascending order. -/
theorem filter (ascending : entries.Ascending) (p : String × α → Bool) :
    Ascending (entries.filter p) :=
  List.Pairwise.filter p ascending

end Ascending

/-- The order is one of the keys. -/
theorem ascending_map_iff {f : α → β} :
    Ascending (entries.map fun e => (e.1, f e.2)) ↔ entries.Ascending :=
  List.pairwise_map

end Entries

namespace Table

variable {α : Type} {t u : Table α}

/-- Tables are the same if the same is found under each key. -/
theorem ext_get? (same : ∀ key, t.get? key = u.get? key) : t = u :=
  ext (t.ascending.ext u.ascending same)

/-- The table of entries in order has these entries. -/
theorem ofList_eq {entries : Entries α} (ascending : entries.Ascending) :
    ofList entries = ⟨entries, ascending⟩ :=
  ext ascending.sorted_eq

end Table

end BudgetedRun
