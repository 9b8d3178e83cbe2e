import BudgetedRun.Config.Text
import BudgetedRun.Proofs.Toml.Assembly
import BudgetedRun.Proofs.Toml.Lines

/-!
# Reading settings back

Settings are read back from the text they are written as (`Config.parse?_render`): the text is read
to its lines (`Config.reads_render`), the lines make a table with an entry for each setting, and in
it every setting is found.
-/

namespace BudgetedRun

namespace Config

open Toml

variable {n : Nat} {rest : List Char} {lines : List Toml.Line}

/-! ### Lines -/

/-- The name of a setting. -/
def IsName (name : String) : Prop := name.toList ≠ [] ∧ name.toList.all Read.isBare = true

instance (name : String) : Decidable (IsName name) := inferInstanceAs (Decidable (_ ∧ _))

/-- The names of the settings are keys without quotes. -/
theorem IsName.isBareKey {name : String} (of : IsName name) : Read.IsBareKey name.toList :=
  ⟨of.1, List.all_eq_true.mp of.2⟩

/-- The characters of a line with a number. -/
theorem toList_numberLine (name : String) (n : Nat) :
    (numberLine name n).toList ++ rest =
      name.toList ++ ' ' :: '=' :: ' ' :: (Nat.toDigits 10 n ++ '\n' :: rest) := by
  have written : numberLine name n = name ++ " = " ++ toString n ++ "\n" := rfl
  simp only [written, Nat.toString_eq_ofList_toDigits, String.toList_append, String.toList_ofList,
    List.append_assoc]
  rfl

/-- A line with a number is read back as that name and number. -/
theorem reads_numberLine (name : String) (of : IsName name) (below : n < UInt64.size)
    (reads : Read.Reads rest lines) :
    Read.Reads ((numberLine name n).toList ++ rest) (.pair [name] (.integer n) :: lines) := by
  have line := reads.pair of.isBareKey (Read.shows_toDigits below)
  rwa [String.ofList_toList, ← toList_numberLine] at line

/-- A line with a text is read back as that name and text. -/
theorem reads_textLine (name text : String) (of : IsName name) (reads : Read.Reads rest lines) :
    Read.Reads ((textLine name text).toList ++ rest) (.pair [name] (.string text) :: lines) := by
  have line := reads.pair of.isBareKey (Read.shows_chars text.toList)
  rw [String.ofList_toList, String.ofList_toList] at line
  have written : textLine name text =
      name ++ " = " ++ String.ofList (Quoted.chars text.toList) ++ "\n" := rfl
  simp only [written, String.toList_append, String.toList_ofList, List.append_assoc]
  exact line

/-- A line with the name of a group is read back as its header. -/
theorem reads_header (name : String) (of : IsName name) (reads : Read.Reads rest lines) :
    Read.Reads ('\n' :: '[' :: (name.toList ++ ']' :: '\n' :: rest)) (.header [name] :: lines) := by
  have line := (reads.header of.isBareKey).blank
  rwa [String.ofList_toList] at line

/-- The entries of the limits. -/
def limitEntries (limits : Limits) : Contents :=
  [("max_iterations", .integer limits.maxIterations.toNat),
    ("max_tokens", .integer limits.maxTokens.toNat)] ++
  match limits.maxExecutionMillis with
  | some n => [("max_execution_time_ms", .integer n.toNat)]
  | none => []

def mockEntries (mock : MockSettings) : Contents :=
  [("content", .string mock.content), ("input_tokens", .integer mock.inputTokens.toNat),
    ("output_tokens", .integer mock.outputTokens.toNat),
    ("latency_ms", .integer mock.latencyMillis.toNat)]

/-- The groups of settings with their entries. -/
def groups (c : Config) : List (String × Contents) :=
  [("store", [("base_path", .string c.storePath)]), ("mock", mockEntries c.mock)]

/-- The lines of the limits are read back as their entries. -/
theorem reads_limits (limits : Limits) (reads : Read.Reads rest lines) :
    Read.Reads
      ((numberLine "max_iterations" limits.maxIterations.toNat).toList ++
        ((numberLine "max_tokens" limits.maxTokens.toNat).toList ++
          ((match limits.maxExecutionMillis with
            | some n => numberLine "max_execution_time_ms" n.toNat
            | none => "").toList ++ rest)))
      (pairLines (limitEntries limits) ++ lines) := by
  have iterations : limits.maxIterations.toNat < UInt64.size :=
    Nat.lt_trans limits.maxIterations.toNat_lt (by decide)
  refine reads_numberLine _ (by decide) iterations <|
    reads_numberLine _ (by decide) limits.maxTokens.toNat_lt ?_
  cases limits.maxExecutionMillis with
  | none => exact reads
  | some n => exact reads_numberLine _ (by decide) n.toNat_lt reads

/-- The lines of the mock settings are read back as their entries. -/
theorem reads_mock (mock : MockSettings) (reads : Read.Reads rest lines) :
    Read.Reads
      ((textLine "content" mock.content).toList ++
        ((numberLine "input_tokens" mock.inputTokens.toNat).toList ++
          ((numberLine "output_tokens" mock.outputTokens.toNat).toList ++
            ((numberLine "latency_ms" mock.latencyMillis.toNat).toList ++ rest))))
      (pairLines (mockEntries mock) ++ lines) :=
  reads_textLine _ _ (by decide) <|
    reads_numberLine _ (by decide) mock.inputTokens.toNat_lt <|
    reads_numberLine _ (by decide) mock.outputTokens.toNat_lt <|
    reads_numberLine _ (by decide) mock.latencyMillis.toNat_lt reads

/-- The text of settings has a line for each setting that is set, and the headers of the groups. -/
theorem reads_render (c : Config) :
    Read.Reads c.render.toList
      (pairLines (limitEntries c.limits) ++ c.groups.flatMap tableLines) := by
  have mock := reads_header "mock" (by decide) (reads_mock c.mock Read.reads_nil.blank)
  have store := reads_header "store" (by decide) <|
    reads_textLine "base_path" c.storePath (by decide) mock
  have storeHeader (rest : List Char) : "\n[store]\n".toList ++ rest =
      '\n' :: '[' :: ("store".toList ++ ']' :: '\n' :: rest) := rfl
  have mockHeader (rest : List Char) : "\n[mock]\n".toList ++ rest =
      '\n' :: '[' :: ("mock".toList ++ ']' :: '\n' :: rest) := rfl
  simp only [render, String.toList_append, List.append_assoc, storeHeader, mockHeader]
  exact reads_limits c.limits store

/-! ### Settings -/

/-- All entries of settings. -/
def entries (c : Config) : Contents := limitEntries c.limits ++ c.groups.map tableEntry

/-- No name comes twice among the groups of settings. -/
theorem nodup_entries (c : Config) : (c.entries.map (·.1)).Nodup := by
  obtain ⟨⟨iterations, tokens, time⟩, storePath, mock⟩ := c
  cases time <;> simp [entries, limitEntries, groups, tableEntry]

/-- No name comes twice in a group of settings. -/
theorem nodup_groups (c : Config) : ∀ group ∈ c.groups, (group.2.map (·.1)).Nodup := by
  simp [groups, mockEntries]

/-- The text of settings holds a table with these entries. -/
theorem parse?_contents (c : Config) :
    Contents.parse? c.render = some (Entries.sorted c.entries) := by
  have unmarked : Read.skipMark c.render.toList = c.render.toList := by
    simp only [render, String.toList_append, List.append_assoc, toList_numberLine]
    rfl
  simp only [Contents.parse?, unmarked, reads_render c _ (Nat.lt_succ_self _), Option.bind_some]
  exact assemble_lines c.nodup_entries c.nodup_groups

/-- A number of 64 bits is read back. -/
theorem word64?_integer (n : UInt64) : word64? (.integer n.toNat) = some n := by
  have below : 0 ≤ (n.toNat : Int) ∧ (n.toNat : Int).toNat < UInt64.size :=
    ⟨Int.natCast_nonneg _, n.toNat_lt⟩
  rw [word64?, whole?, if_pos below, Int.toNat_natCast, Option.map_some, UInt64.ofNat_toNat]

/-- A number of 32 bits is read back. -/
theorem word32?_integer (n : UInt32) : word32? (.integer n.toNat) = some n := by
  have below : 0 ≤ (n.toNat : Int) ∧ (n.toNat : Int).toNat < UInt32.size :=
    ⟨Int.natCast_nonneg _, n.toNat_lt⟩
  rw [word32?, whole?, if_pos below, Int.toNat_natCast, Option.map_some, UInt32.ofNat_toNat]

/-- Entries whose keys are all known have no others. -/
theorem areOthersUsable_sorted {entries : Contents} {names : List String}
    (known : ∀ e ∈ entries, e.1 ∈ names) :
    areOthersUsable names (Entries.sorted entries) = true := by
  refine List.all_eq_true.mpr fun e member => ?_
  simp only [known e (Entries.mem_of_mem_sorted member), decide_true, Bool.true_or]

/-- In a group all of whose keys are known, each setting is found. -/
theorem setting?_sorted {entries : Contents} {names : List String}
    (distinct : (entries.map (·.1)).Nodup) (known : ∀ e ∈ entries, e.1 ∈ names) (name : String) :
    setting? (.table .header (Entries.sorted entries)) names name =
      some (Entries.find? name entries) := by
  rw [setting?, areOthersUsable_sorted known, if_pos rfl, Entries.find?_sorted distinct]

/-- The path of the store is read back from its table. -/
theorem storePathOfToml?_entries (path : String) :
    storePathOfToml? (.table .header (Entries.sorted [("base_path", .string path)])) =
      some path := by
  rw [storePathOfToml?, setting?_sorted (by simp) (by simp)]
  rfl

/-- The mock settings are read back from their table. -/
theorem mockOfToml?_entries (mock : MockSettings) :
    mockOfToml? (.table .header (Entries.sorted (mockEntries mock))) = some mock := by
  have distinct : ((mockEntries mock).map (·.1)).Nodup := by simp [mockEntries]
  have known : ∀ e ∈ mockEntries mock,
      e.1 ∈ ["content", "input_tokens", "output_tokens", "latency_ms"] := by simp [mockEntries]
  simp only [mockOfToml?, setting?_sorted distinct known]
  simp [mockEntries, Entries.find?, orStandard, text?, word64?_integer]

/-- Settings are read back from the table of their groups. -/
theorem ofToml?_entries (c : Config) : ofToml? (Entries.sorted c.entries) = some c := by
  have known : ∀ e ∈ c.entries, e.1 ∈ keys := by
    obtain ⟨⟨iterations, tokens, time⟩, storePath, mock⟩ := c
    cases time <;> simp [entries, limitEntries, groups, tableEntry, keys]
  simp only [ofToml?, areOthersUsable_sorted known, Entries.find?_sorted c.nodup_entries]
  obtain ⟨⟨iterations, tokens, time⟩, storePath, mock⟩ := c
  cases time <;>
    simp [entries, limitEntries, groups, tableEntry, Entries.find?, orStandard, word32?_integer,
      word64?_integer, storePathOfToml?_entries, mockOfToml?_entries]

/-- **Settings are read back** from the text they are written as, whatever their numbers and texts
are. -/
theorem parse?_render (c : Config) : parse? c.render = some c := by
  rw [parse?, parse?_contents, Option.bind_some, ofToml?_entries]

end Config

end BudgetedRun
