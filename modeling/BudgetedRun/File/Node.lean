import BudgetedRun.Table

/-!
# Files and directories

A file or a directory with all that is in it, and how something below it is looked up or changed.
The entries of a directory are in no particular order, but no two of them have the same name. `Tree`
carries the proof that this is so at every depth (`Node.Distinct`), so whatever is done to a tree
leaves one.
-/

namespace BudgetedRun

/-- A file or a directory. -/
inductive Node where
  | file (content : ByteArray)
  | directory (entries : List (String × Node))

namespace Node

instance : Inhabited Node := ⟨.directory []⟩

/-- What a directory has under a name. A file has nothing in it. -/
def entry? (name : String) : Node → Option Node
  | .directory entries => Entries.find? name entries
  | .file _ => none

/-- What is found by going down through some names. -/
def get? (n : Node) : List String → Option Node
  | [] => some n
  | name :: rest => (n.entry? name).bind fun child => child.get? rest

/-- Change what is found by going down through some names. A missing name or a file on the way
leaves everything as it is. -/
def modify (f : Node → Node) : List String → Node → Node
  | [], n => f n
  | name :: rest, .directory entries =>
    match Entries.find? name entries with
    | some child => .directory (Entries.replace name (modify f rest child) entries)
    | none => .directory entries
  | _ :: _, .file content => .file content

/-- Put an entry into a directory. -/
def put (name : String) (child : Node) : Node → Node
  | .directory entries => .directory (Entries.replace name child entries)
  | .file content => .file content

/-- Take an entry out of a directory. -/
def drop (name : String) : Node → Node
  | .directory entries => .directory (Entries.erase name entries)
  | .file content => .file content

/-- It is a directory. -/
def isDirectory : Node → Bool
  | .directory _ => true
  | .file _ => false

/-- No directory, at any depth, has two entries of one name. -/
inductive Distinct : Node → Prop where
  | file {content : ByteArray} : Distinct (.file content)
  | directory {entries : List (String × Node)} (names : (entries.map (·.1)).Nodup)
      (children : ∀ e ∈ entries, e.2.Distinct) : Distinct (.directory entries)

namespace Distinct

variable {n child : Node} {name : String} {path : List String} {f : Node → Node}
  {entries : List (String × Node)}

/-- The names in such a directory differ. -/
theorem names (distinct : (Node.directory entries).Distinct) : (entries.map (·.1)).Nodup := by
  cases distinct with
  | directory names children => exact names

/-- What such a directory has under a name is such a tree. -/
theorem entry (distinct : n.Distinct) (found : n.entry? name = some child) : child.Distinct := by
  cases distinct with
  | file => cases found
  | directory names children => exact children _ (Entries.mem_of_find? found)

/-- What is found in such a tree is such a tree. -/
theorem get (distinct : n.Distinct) (found : n.get? path = some child) : child.Distinct := by
  induction path generalizing n with
  | nil =>
      cases found
      exact distinct
  | cons name rest ih =>
      obtain ⟨m, entry, found⟩ := Option.bind_eq_some_iff.mp found
      exact ih (distinct.entry entry) found

/-- An entry can be put in place of another one, or beside the others. -/
theorem replace (distinct : (Node.directory entries).Distinct) (new : child.Distinct) :
    (Node.directory (Entries.replace name child entries)).Distinct := by
  cases distinct with
  | directory names children =>
      refine .directory (Entries.nodup_replace names) fun e member => ?_
      rcases Entries.mem_replace member with rfl | kept
      · exact new
      · exact children e kept

/-- A change keeps the names of a tree apart if it keeps them apart where it takes place. -/
theorem modify (distinct : n.Distinct) (keeps : ∀ m, m.Distinct → (f m).Distinct) :
    (n.modify f path).Distinct := by
  induction path generalizing n with
  | nil => exact keeps n distinct
  | cons name rest ih =>
      cases n with
      | file content => exact distinct
      | directory entries =>
          rw [Node.modify]
          split
          · rename_i child found
            exact distinct.replace (ih (distinct.entry found))
          · exact distinct

/-- Putting an entry into a directory keeps the names apart. -/
theorem put (distinct : n.Distinct) (new : child.Distinct) : (Node.put name child n).Distinct := by
  cases n with
  | file content => exact distinct
  | directory entries => exact distinct.replace new

/-- Taking an entry out of a directory keeps the names apart. -/
theorem drop (distinct : n.Distinct) : (n.drop name).Distinct := by
  cases distinct with
  | file => exact .file
  | directory names children =>
      exact .directory (names.sublist (Entries.erase_sublist.map _))
        fun e member => children e (Entries.erase_sublist.subset member)

end Distinct

end Node

/-- A file or a directory in which, at any depth, no directory has two entries of one name. -/
structure Tree where
  node : Node
  distinct : node.Distinct

namespace Tree

/-- A tree is determined by what it consists of. -/
theorem ext {t u : Tree} (node : t.node = u.node) : t = u := by
  cases t
  cases u
  cases node
  rfl

/-- A file with some content. -/
def file (content : ByteArray) : Tree := ⟨.file content, .file⟩

/-- A directory with some entries; of several under one name the last one stays. -/
def directory (entries : List (String × Tree)) : Tree where
  node := .directory (Entries.sorted (entries.map fun e => (e.1, e.2.node)))
  distinct := by
    refine .directory (Entries.ascending_sorted _).nodup fun e member => ?_
    obtain ⟨entry, -, rfl⟩ := List.mem_map.mp (Entries.mem_of_mem_sorted member)
    exact entry.2.distinct

/-- What is found by going down through some names. -/
def get? (t : Tree) (path : List String) : Option Tree :=
  match found : t.node.get? path with
  | some n => some ⟨n, t.distinct.get found⟩
  | none => none

/-- The tree with an entry in one of its directories. -/
def put (t : Tree) (path : List String) (name : String) (child : Tree) : Tree where
  node := t.node.modify (Node.put name child.node) path
  distinct := t.distinct.modify fun _ distinct => distinct.put child.distinct

/-- The tree without an entry of one of its directories. -/
def drop (t : Tree) (path : List String) (name : String) : Tree where
  node := t.node.modify (Node.drop name) path
  distinct := t.distinct.modify fun _ distinct => distinct.drop

/-- A tree is found where what it consists of is found. -/
theorem get?_eq_some_iff {t u : Tree} {path : List String} :
    t.get? path = some u ↔ t.node.get? path = some u.node := by
  obtain ⟨m, distinct⟩ := u
  rw [get?]
  split
  · rename_i n found
    simp only [found, Option.some.injEq, Tree.mk.injEq]
  · rename_i missing
    simp only [missing, reduceCtorEq]

end Tree

end BudgetedRun
