import BudgetedRun.Proofs.Table
import BudgetedRun.Toml.Assembly

/-!
# Tables from lines

Keys with values, and after them tables under headers, all with keys of one part. If no key comes
twice, these lines are accepted and make the table with just these entries (`assemble_lines`).
-/

namespace BudgetedRun

namespace Toml

/-- Lines that give values to keys. -/
def pairLines (pairs : Contents) : List Line := pairs.map fun e => .pair [e.1] e.2

/-- The lines of a table with a header. -/
def tableLines (table : String × Contents) : List Line := .header [table.1] :: pairLines table.2

/-- The entry that the lines of a table make. -/
def tableEntry (table : String × Contents) : String × Value :=
  (table.1, .table .header (Entries.sorted table.2))

/-- Keys with values, put one after another into a table that has none of them yet. -/
def Fresh (pairs contents : Contents) : Prop :=
  (pairs.map (·.1)).Nodup ∧ ∀ e ∈ pairs, Entries.find? e.1 contents = none

variable {pairs contents : Contents} {tables : List (String × Contents)}

/-- The other keys are as new as before once the first has its value. -/
theorem Fresh.insert {e : String × Value} (fresh : Fresh (e :: pairs) contents) :
    Fresh pairs (Entries.insert e.1 e.2 contents) := by
  obtain ⟨distinct, absent⟩ := fresh
  obtain ⟨new, distinct⟩ := List.nodup_cons.mp distinct
  refine ⟨distinct, fun other member => ?_⟩
  have differs : other.1 ≠ e.1 := fun same => new (List.mem_map.mpr ⟨other, member, same⟩)
  rw [Entries.find?_insert, if_neg differs]
  exact absent other (List.mem_cons_of_mem _ member)

/-- Distinct keys are new to an empty table. -/
theorem fresh_nil (distinct : (pairs.map (·.1)).Nodup) : Fresh pairs [] :=
  ⟨distinct, fun _ _ => rfl⟩

/-- New keys get their values one after another. -/
theorem Fresh.assignAll (fresh : Fresh pairs contents) :
    Contents.assignAll (pairs.map fun e => ([e.1], e.2)) contents =
      some (pairs.foldl (fun table e => Entries.insert e.1 e.2 table) contents) := by
  induction pairs generalizing contents with
  | nil => rfl
  | cons e pairs ih =>
      have absent := fresh.2 e List.mem_cons_self
      have first : Contents.assign [e.1] e.2 contents =
          some (Entries.insert e.1 e.2 contents) := by
        change Contents.add e.1 e.2 contents = _
        rw [Contents.add, absent]
        rfl
      rw [List.map_cons, Contents.assignAll, List.foldlM_cons, first]
      exact ih fresh.insert

/-- A table under a new header is added with its entries. -/
theorem addTable_new {table : String × Contents} (absent : Entries.find? table.1 contents = none)
    (distinct : (table.2.map (·.1)).Nodup) :
    Contents.addTable [table.1] (table.2.map fun e => ([e.1], e.2)) contents =
      some (Entries.insert table.1 (.table .header (Entries.sorted table.2)) contents) := by
  simp only [Contents.addTable, List.getLast?_singleton, List.dropLast_singleton,
    Contents.descend, absent, (fresh_nil distinct).assignAll, Option.map_some]
  rfl

/-- The lines of pairs end where a header comes, or nothing. -/
theorem leadingPairs_append (pairs : Contents) (tables : List (String × Contents)) :
    leadingPairs (pairLines pairs ++ tables.flatMap tableLines) =
      (pairs.map fun e => ([e.1], e.2), tables.flatMap tableLines) := by
  induction pairs with
  | nil => cases tables <;> rfl
  | cons e pairs ih =>
      change leadingPairs (.pair [e.1] e.2 :: (pairLines pairs ++ tables.flatMap tableLines)) = _
      rw [leadingPairs, ih]
      rfl

/-- Tables under new headers are added one after another. -/
theorem sections_tables (n : Nat) (bound : tables.length ≤ n)
    (fresh : Fresh (tables.map tableEntry) contents)
    (distinct : ∀ table ∈ tables, (table.2.map (·.1)).Nodup) :
    sections n (tables.flatMap tableLines) contents =
      some ((tables.map tableEntry).foldl (fun table e => Entries.insert e.1 e.2 table)
        contents) := by
  induction tables generalizing n contents with
  | nil => cases n <;> rfl
  | cons table tables ih =>
      obtain ⟨n, rfl⟩ := Nat.exists_eq_add_one.mpr (Nat.lt_of_lt_of_le (Nat.succ_pos _) bound)
      obtain ⟨here, distinct⟩ := List.forall_mem_cons.mp distinct
      have absent := fresh.2 (tableEntry table) List.mem_cons_self
      change sections (n + 1)
        (.header [table.1] :: (pairLines table.2 ++ tables.flatMap tableLines))
        contents = _
      rw [sections, leadingPairs_append]
      simp only [addTable_new absent here, Option.bind_some]
      exact ih n (Nat.le_of_succ_le_succ bound) fresh.insert distinct

/-- Each table has a line at least. -/
theorem length_le_tableLines (tables : List (String × Contents)) :
    tables.length ≤ (tables.flatMap tableLines).length := by
  induction tables with
  | nil => exact Nat.le_refl _
  | cons table tables ih =>
      rw [List.flatMap_cons, tableLines, List.length_append, List.length_cons, List.length_cons]
      omega

/-- **Lines with distinct keys make the table of their entries.** -/
theorem assemble_lines (distinct : ((pairs ++ tables.map tableEntry).map (·.1)).Nodup)
    (within : ∀ table ∈ tables, (table.2.map (·.1)).Nodup) :
    assemble (pairLines pairs ++ tables.flatMap tableLines) =
      some (Entries.sorted (pairs ++ tables.map tableEntry)) := by
  rw [List.map_append, List.nodup_append] at distinct
  obtain ⟨first, second, apart⟩ := distinct
  have fresh : Fresh (tables.map tableEntry) (Entries.sorted pairs) := by
    refine ⟨second, fun e member => ?_⟩
    rw [Entries.find?_sorted first, Entries.find?_eq_none_iff]
    exact fun among => apart _ among _ (List.mem_map.mpr ⟨e, member, rfl⟩) rfl
  have rest := sections_tables _ (length_le_tableLines tables) fresh within
  simp only [assemble, leadingPairs_append, (fresh_nil first).assignAll, Option.bind_some]
  exact rest.trans (by rw [Entries.sorted, Entries.sorted, List.foldl_append])

end Toml

end BudgetedRun
