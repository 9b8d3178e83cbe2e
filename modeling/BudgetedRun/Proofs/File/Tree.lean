import BudgetedRun.Proofs.File.Path
import BudgetedRun.Proofs.Table

/-!
# Changes of a file tree

What is found in a tree after something was put into one of its directories, or taken out of it;
which directories stay; and where a walk through names leads, as long as all of them are those of
directories (`Disk.Descends`). A walk goes the same way in a tree that has the same directories and
others beside them. An operation that succeeded changed one place, where its path leads
(`Disk.write_ok`, `Disk.rename_ok`, `Disk.remove_ok`).
-/

namespace BudgetedRun

namespace Node

variable {n m child : Node} {f : Node → Node} {x y : String} {xs ys : List String}
  {es : List (String × Node)}

theorem get?_cons (n : Node) (x : String) (xs : List String) :
    n.get? (x :: xs) = (n.entry? x).bind fun child => child.get? xs := rfl

/-- A path leads on from where its first part leads. -/
theorem get?_append (n : Node) (xs ys : List String) :
    n.get? (xs ++ ys) = (n.get? xs).bind fun child => child.get? ys := by
  induction xs generalizing n with
  | nil => rfl
  | cons x xs ih =>
      rw [List.cons_append, get?_cons, get?_cons]
      cases n.entry? x with
      | none => rfl
      | some child => exact ih child

/-- Where nothing is found, nothing is found below. -/
theorem get?_append_of_none {n : Node} {xs : List String} (missing : n.get? xs = none)
    (ys : List String) : n.get? (xs ++ ys) = none := by
  rw [get?_append, missing, Option.bind_none]

/-- To change what is at a path is to change it where its first part leads. -/
theorem modify_append (f : Node → Node) (xs ys : List String) (n : Node) :
    n.modify f (xs ++ ys) = n.modify (fun m => m.modify f ys) xs := by
  induction xs generalizing n with
  | nil => rfl
  | cons x xs ih =>
      cases n with
      | file content => rfl
      | directory es =>
          rw [List.cons_append, modify, modify]
          cases Entries.find? x es with
          | none => rfl
          | some child => simp only [ih child]

/-- At the path of a change is the changed node. -/
theorem get?_modify (found : n.get? xs = some m) : (n.modify f xs).get? xs = some (f m) := by
  induction xs generalizing n with
  | nil => exact congrArg (some ∘ f) (Option.some.inj found)
  | cons x xs ih =>
      cases n with
      | file content => cases found
      | directory es =>
          rw [get?_cons, entry?] at found
          cases there : Entries.find? x es with
          | none =>
              rw [there] at found
              cases found
          | some child =>
              rw [there] at found
              rw [modify, there, get?_cons, entry?, Entries.find?_replace, if_pos rfl]
              exact ih found

/-- A change below a name is seen below that name only. -/
theorem get?_modify_cons (f : Node → Node) (n : Node) (x y : String) (xs ys : List String) :
    (n.modify f (x :: xs)).get? (y :: ys) =
      if y = x then (n.entry? x).bind fun child => (child.modify f xs).get? ys
      else n.get? (y :: ys) := by
  cases n with
  | file content => split <;> rfl
  | directory es =>
      cases there : Entries.find? x es with
      | none =>
          simp only [modify, get?_cons, entry?, there]
          split
          · rename_i same
            rw [same, there]
            rfl
          · rfl
      | some child =>
          simp only [modify, get?_cons, entry?, there, Entries.find?_replace]
          split <;> rfl

/-- A change of what is found at some names is seen at these names only. -/
theorem get?_modify_append (f : Node → Node) (n : Node) {xs ys : List String} (zs : List String)
    (length : ys.length = xs.length) :
    (n.modify f xs).get? (ys ++ zs) =
      if ys = xs then (n.get? xs).bind fun m => (f m).get? zs else n.get? (ys ++ zs) := by
  induction xs generalizing n ys with
  | nil =>
      obtain rfl := List.length_eq_zero_iff.mp length
      rfl
  | cons x xs ih =>
      cases ys with
      | nil => cases length
      | cons y ys =>
          have shorter := Nat.succ.inj length
          rw [List.cons_append, get?_modify_cons, get?_cons, get?_cons]
          by_cases same : y = x
          · subst same
            rw [if_pos rfl]
            cases n.entry? y with
            | none => split <;> rfl
            | some child =>
                simp only [Option.bind_some, ih child shorter, List.cons.injEq, true_and]
          · rw [if_neg same, if_neg fun both => same (List.cons.inj both).1]

/-- The entry that is put is found under its name, and the others stay. -/
theorem get?_put_cons (directory : n.isDirectory = true) (x y : String) (child : Node)
    (ys : List String) :
    (put x child n).get? (y :: ys) = if y = x then child.get? ys else n.get? (y :: ys) := by
  cases n with
  | file content => cases directory
  | directory es =>
      simp only [put, get?_cons, entry?, Entries.find?_replace]
      split <;> rfl

/-- What lies below the other names of a directory stays when an entry is put there. -/
theorem get?_put_of_ne (another : y ≠ x) (ys : List String) :
    (put x child n).get? (y :: ys) = n.get? (y :: ys) := by
  cases n with
  | file content => rfl
  | directory es => rw [get?_put_cons rfl, if_neg another]

/-- What lies below the other names of a directory stays when an entry is dropped. -/
theorem get?_drop_of_ne (another : y ≠ x) (ys : List String) :
    (n.drop x).get? (y :: ys) = n.get? (y :: ys) := by
  cases n with
  | file content => rfl
  | directory es => simp only [drop, get?_cons, entry?, Entries.find?_erase_of_ne another]

/-- What lies above something that is found is a directory. -/
theorem isDirectory_of_get? (found : n.get? (x :: xs) = some m) : n.isDirectory = true := by
  cases n with
  | file content => cases found
  | directory es => rfl

/-- A directory has entries. -/
theorem exists_directory (directory : n.isDirectory = true) : ∃ es, n = .directory es := by
  cases n with
  | file content => cases directory
  | directory es => exact ⟨es, rfl⟩

/-- Only a directory has a directory below it. -/
theorem eq_directory_of_get? (found : n.get? xs = some (.directory es)) :
    ∃ es', n = .directory es' := by
  cases n with
  | file content => cases xs <;> cases found
  | directory es' => exact ⟨es', rfl⟩

/-- On the way to a directory all nodes are directories. -/
theorem exists_directory_of_get?_append (found : n.get? (xs ++ ys) = some (.directory es)) :
    ∃ es', n.get? xs = some (.directory es') := by
  rw [get?_append] at found
  cases there : n.get? xs with
  | none =>
      rw [there] at found
      cases found
  | some m =>
      rw [there] at found
      obtain ⟨es', rfl⟩ := eq_directory_of_get? found
      exact ⟨es', rfl⟩

/-- A change further down leaves a directory a directory. -/
theorem isDirectory_modify (f : Node → Node) (n : Node) (x : String) (xs : List String) :
    (n.modify f (x :: xs)).isDirectory = n.isDirectory := by
  cases n with
  | file content => rfl
  | directory es =>
      rw [modify]
      split <;> rfl

theorem isDirectory_put (n : Node) (x : String) (child : Node) :
    (put x child n).isDirectory = n.isDirectory := by
  cases n <;> rfl

theorem isDirectory_drop (n : Node) (x : String) : (n.drop x).isDirectory = n.isDirectory := by
  cases n <;> rfl

/-- What holds something is a directory. -/
theorem exists_directory_of_get?_concat (found : n.get? (xs ++ [x]) = some m) :
    ∃ es, n.get? xs = some (.directory es) := by
  rw [get?_append] at found
  obtain ⟨parent, there, found⟩ := Option.bind_eq_some_iff.mp found
  obtain ⟨es, rfl⟩ := exists_directory (isDirectory_of_get? found)
  exact ⟨es, there⟩

/-- In a directory further down, an entry that is put is found under its name. -/
theorem get?_modify_put (found : n.get? xs = some (.directory es)) (child : Node) (y : String) :
    (n.modify (put x child) xs).get? (xs ++ [y]) =
      if y = x then some child else n.get? (xs ++ [y]) := by
  rw [get?_append, get?_modify found, Option.bind_some, get?_put_cons rfl, get?_append n xs, found]
  rfl

/-- In a directory further down, the other entries stay when one is dropped. -/
theorem get?_modify_drop (found : n.get? xs = some (.directory es)) (another : y ≠ x) :
    (n.modify (Node.drop x) xs).get? (xs ++ [y]) = n.get? (xs ++ [y]) := by
  rw [get?_append, get?_modify found, Option.bind_some, get?_drop_of_ne another, get?_append n xs,
    found]
  rfl

/-- What is found where something was put is that. -/
theorem eq_of_get?_modify_put (found : (n.modify (put x child) xs).get? (xs ++ [x]) = some m) :
    m = child := by
  rw [get?_modify_append _ n [x] rfl, if_pos rfl] at found
  obtain ⟨parent, there, found⟩ := Option.bind_eq_some_iff.mp found
  obtain ⟨es, rfl⟩ := exists_directory ((isDirectory_put parent x child).symm.trans
    (isDirectory_of_get? found))
  rw [get?_put_cons rfl, if_pos rfl] at found
  exact (Option.some.inj found).symm

/-- An entry that was taken out is gone, since no other has its name. -/
theorem Distinct.get?_drop (distinct : n.Distinct) (ys : List String) :
    (n.drop x).get? (x :: ys) = none := by
  cases distinct with
  | file => rfl
  | @directory es names children =>
      have gone : Entries.find? x (Entries.erase x es) = none :=
        Entries.find?_eq_none_iff.mpr (Entries.not_mem_erase_key names)
      rw [Node.drop, get?_cons, entry?, gone]
      rfl

/-- Where one tree has a directory the other one has one too. -/
def KeepsDirectories (n n' : Node) : Prop :=
  ∀ path es, n.get? path = some (.directory es) → ∃ es', n'.get? path = some (.directory es')

namespace KeepsDirectories

/-- Directories that stay through two changes stay through both. -/
theorem trans {n' n'' : Node} (first : KeepsDirectories n n') (second : KeepsDirectories n' n'') :
    KeepsDirectories n n'' := by
  intro path es there
  obtain ⟨es', there'⟩ := first path es there
  exact second path es' there'

/-- A change that keeps directories further down keeps all of them. -/
theorem modify (found : n.get? xs = some m) (keeps : KeepsDirectories m (f m)) :
    KeepsDirectories n (n.modify f xs) := by
  induction xs generalizing n with
  | nil =>
      obtain rfl := Option.some.inj found
      exact keeps
  | cons x xs ih =>
      intro path es there
      cases path with
      | nil =>
          cases n with
          | file content => cases there
          | directory es' =>
              rw [Node.modify]
              split
              · exact ⟨_, rfl⟩
              · exact ⟨_, rfl⟩
      | cons y ys =>
          rw [get?_modify_cons]
          split
          · rename_i same
            subst same
            rw [get?_cons] at found there
            cases entry : n.entry? y with
            | none =>
                rw [entry] at found
                cases found
            | some child =>
                rw [entry] at found there
                exact ih found ys es there
          · exact ⟨es, there⟩

/-- A change of one entry keeps all directories if that entry was none. -/
theorem of_entry {n' : Node} (same : n'.isDirectory = n.isDirectory)
    (others : ∀ y, y ≠ x → ∀ ys, n'.get? (y :: ys) = n.get? (y :: ys))
    (vacant : ∀ es, n.get? [x] ≠ some (.directory es)) : KeepsDirectories n n' := by
  intro path es there
  cases path with
  | nil =>
      obtain rfl := Option.some.inj there
      obtain ⟨es', rfl⟩ := exists_directory same
      exact ⟨es', rfl⟩
  | cons y ys =>
      obtain ⟨es', entry⟩ := exists_directory_of_get?_append (List.singleton_append ▸ there)
      have another : y ≠ x := fun own => vacant es' (own ▸ entry)
      exact ⟨es, (others y another ys).trans there⟩

/-- An entry that is put where no directory is keeps all directories. -/
theorem put (vacant : ∀ es, n.get? [x] ≠ some (.directory es)) :
    KeepsDirectories n (Node.put x child n) :=
  of_entry (isDirectory_put n x child) (fun _ another ys => get?_put_of_ne another ys) vacant

/-- An entry that is dropped where no directory is keeps all directories. -/
theorem drop (vacant : ∀ es, n.get? [x] ≠ some (.directory es)) :
    KeepsDirectories n (n.drop x) :=
  of_entry (isDirectory_drop n x) (fun _ another ys => get?_drop_of_ne another ys) vacant

end KeepsDirectories

end Node

namespace Disk

variable {d : Disk} {slash : Bool} {root root' : Node} {here dir : List String} {name : String}
  {ns rest : List String} {es : List (String × Node)}

section changes

variable {d' : Disk} {path target : String} {content : ByteArray}

/-- What is found at a path is where the path leads. -/
theorem find_ok {m : Node} (found : d.find path = .ok m) :
    ∃ place, d.locate path = .ok place ∧ d.at? place = some m := by
  rw [find] at found
  split at found
  · cases found
  rename_i place located
  refine ⟨place, located, ?_⟩
  split at found
  · cases found
  · rename_i there
    split at found
    · cases found
    · cases found
      exact there
  · rename_i there
    cases found
    exact there

/-- No two entries of a directory that is found have the same name. -/
theorem nodup_of_find (found : d.find path = .ok (.directory es)) : (es.map (·.1)).Nodup := by
  obtain ⟨place, -, there⟩ := find_ok found
  exact (d.tree.distinct.get there).names

/-- What is present is found. -/
theorem find_of_isPresent (present : d.isPresent path = true) : ∃ m, d.find path = .ok m := by
  rw [isPresent] at present
  split at present
  · exact ⟨_, by assumption⟩
  · cases present

/-- Where nothing is found to read, nothing is present. -/
theorem isPresent_of_read (missing : d.read path = .error .notFound) :
    d.isPresent path = false := by
  rw [isPresent]
  rw [read] at missing
  split at missing
  · cases missing
  · cases missing
  · rename_i failed
    rw [failed]

/-- What can be listed is a directory. -/
theorem find_of_list {names : List String} (listed : d.list path = .ok names) :
    ∃ es, d.find path = .ok (.directory es) ∧ es.map (·.1) = names := by
  rw [list] at listed
  split at listed
  · exact ⟨_, by assumption, Except.ok.inj listed⟩
  · cases listed
  · cases listed

/-- A disk has a directory at a path exactly if the tree has one there. -/
theorem hasDirectory_iff {path : List String} :
    d.hasDirectory path = true ↔ ∃ es, d.root.get? path = some (.directory es) := by
  rw [hasDirectory, Option.any_eq_true]
  constructor
  · rintro ⟨m, found, directory⟩
    obtain ⟨es, rfl⟩ := Node.exists_directory directory
    exact ⟨es, found⟩
  · rintro ⟨es, found⟩
    exact ⟨_, found, rfl⟩

/-- A file is written into a directory that is there, under a name where there is no directory. -/
theorem write_ok (written : d.write path content = .ok d') :
    ∃ dir name, d.locate path = .ok ⟨dir, some name, false⟩ ∧
      (∃ es, d.root.get? dir = some (.directory es)) ∧
      (∀ es, d.root.get? (dir ++ [name]) ≠ some (.directory es)) ∧
      d' = d.put dir name (.file content) := by
  rw [write] at written
  split at written
  · cases written
  · cases written
  rename_i dir name slash located
  split at written
  · cases written
  · rename_i there
    cases slash with
    | true => cases written
    | false =>
        cases written
        refine ⟨dir, name, located, Node.exists_directory_of_get?_concat there, ?_, rfl⟩
        exact fun es other => by cases there.symm.trans other
  · rename_i missing
    split at written
    · cases written
    rename_i inside
    cases slash with
    | true => cases written
    | false =>
        cases written
        refine ⟨dir, name, located, hasDirectory_iff.mp (by simpa using inside), ?_, rfl⟩
        exact fun es other => by cases missing.symm.trans other

/-- What is moved is taken from under one name and put under another, where there is no directory.
Only a directory can be moved to a path that ends with a slash. -/
theorem rename_ok (renamed : d.rename path target = .ok d') :
    ∃ dir name slash dir' name' slash' t, d.locate path = .ok ⟨dir, some name, slash⟩ ∧
      d.locate target = .ok ⟨dir', some name', slash'⟩ ∧
      d.root.get? (dir ++ [name]) = some t.node ∧
      (∀ es, d.root.get? (dir' ++ [name']) ≠ some (.directory es)) ∧
      (slash' = true → t.node.isDirectory = true) ∧
      d' = (d.drop dir name).put dir' name' t := by
  rw [rename] at renamed
  split at renamed
  · cases renamed
  · cases renamed
  rename_i dir name slash located
  split at renamed
  · cases renamed
  · cases renamed
  rename_i dir' name' slash' located'
  split at renamed
  · cases renamed
  rename_i t there
  split at renamed
  · cases renamed
  split at renamed
  · cases renamed
  rename_i fits
  split at renamed
  · cases renamed
  rename_i vacant
  cases renamed
  refine ⟨dir, name, slash, dir', name', slash', t, located, located',
    Tree.get?_eq_some_iff.mp there, vacant, ?_, rfl⟩
  simpa using fits

/-- What is taken away is a file. -/
theorem remove_ok (removed : d.remove path = .ok d') :
    ∃ dir name slash content, d.locate path = .ok ⟨dir, some name, slash⟩ ∧
      d.root.get? (dir ++ [name]) = some (.file content) ∧ d' = d.drop dir name := by
  rw [remove] at removed
  split at removed
  · cases removed
  · cases removed
  rename_i dir name slash located
  split at removed
  · cases removed
  · cases removed
  rename_i content there
  split at removed
  · cases removed
  cases removed
  exact ⟨dir, name, slash, content, located, there, rfl⟩

end changes

/-- A walk that leads somewhere leads there where all directories are kept. -/
theorem walk_of_keeps {d' : Disk} {place : Place} (keeps : d.root.KeepsDirectories d'.root)
    (walked : d.walk slash here ns = .ok place) : d'.walk slash here ns = .ok place := by
  induction ns generalizing here with
  | nil => exact walked
  | cons name ns ih =>
      rw [walk] at walked ⊢
      split at walked
      · rename_i current
        rw [if_pos current]
        exact ih walked
      rename_i current
      rw [if_neg current]
      split at walked
      · rename_i parent
        rw [if_pos parent]
        exact ih walked
      rename_i parent
      rw [if_neg parent]
      split at walked
      · cases walked
      rename_i short
      rw [if_neg short]
      split at walked
      · rename_i last
        rw [if_pos last]
        exact walked
      rename_i further
      rw [if_neg further]
      split at walked
      · cases walked
      · cases walked
      · rename_i es there
        obtain ⟨es', there'⟩ := keeps _ _ there
        rw [there']
        exact ih walked

/-- A place that is found is found after a change that keeps directories. -/
theorem locate_of_keeps {d' : Disk} {path : String} {place : Place}
    (current : d'.current = d.current) (keeps : d.root.KeepsDirectories d'.root)
    (located : d.locate path = .ok place) : d'.locate path = .ok place := by
  rw [locate] at located ⊢
  split at located
  · cases located
  rename_i nonempty
  rw [if_neg nonempty]
  split at located
  · cases located
  · rw [origin, current]
    exact walk_of_keeps keeps located

/-- A walk to a name in a directory ends with that name. -/
theorem names_of_walk {dir : List String} {name : String} {slash' : Bool}
    (walked : d.walk slash here ns = .ok ⟨dir, some name, slash'⟩) :
    ∃ ms, ns = ms ++ [name] ∧ name ≠ "." ∧ name ≠ ".." := by
  induction ns generalizing here with
  | nil => cases walked
  | cons first ns ih =>
      rw [walk] at walked
      have further (walked : ∃ here, d.walk slash here ns = .ok ⟨dir, some name, slash'⟩) :
          ∃ ms, first :: ns = ms ++ [name] ∧ name ≠ "." ∧ name ≠ ".." := by
        obtain ⟨here, walked⟩ := walked
        obtain ⟨ms, rfl, proper⟩ := ih walked
        exact ⟨first :: ms, rfl, proper⟩
      split at walked
      · exact further ⟨_, walked⟩
      rename_i current
      split at walked
      · exact further ⟨_, walked⟩
      rename_i parent
      split at walked
      · cases walked
      split at walked
      · rename_i last
        cases walked
        rw [last]
        exact ⟨[], rfl, current, parent⟩
      split at walked
      · cases walked
      · cases walked
      · exact further ⟨_, walked⟩

/-- A walk through names, all of them those of directories, and where it arrives. -/
inductive Descends (root : Node) : List String → List String → List String → Prop where
  | done {here : List String} : Descends root here [] here
  | current {here dir rest : List String} :
      Descends root here rest dir → Descends root here ("." :: rest) dir
  | parent {here dir rest : List String} :
      Descends root here.dropLast rest dir → Descends root here (".." :: rest) dir
  | name {here dir rest : List String} {name : String} {es : List (String × Node)}
      (current : name ≠ ".") (parent : name ≠ "..") (short : ¬name.utf8ByteSize > maxNameSize)
      (there : root.get? (here ++ [name]) = some (.directory es)) :
      Descends root (here ++ [name]) rest dir → Descends root here (name :: rest) dir

namespace Descends

/-- A walk goes the same way where all directories are kept. -/
theorem of_keeps (descends : Descends root here ns dir) (keeps : root.KeepsDirectories root') :
    Descends root' here ns dir := by
  induction descends with
  | done => exact .done
  | current _ ih => exact .current ih
  | parent _ ih => exact .parent ih
  | name current parent short there _ ih =>
      obtain ⟨es', there'⟩ := keeps _ _ there
      exact .name current parent short there' ih

/-- A walk to more names goes on from where it arrives. -/
theorem walk (descends : Descends d.root here ns dir) (more : rest ≠ []) :
    d.walk slash here (ns ++ rest) = d.walk slash dir rest := by
  induction descends with
  | done => rfl
  | current _ ih => rwa [List.cons_append, Disk.walk, if_pos rfl]
  | parent _ ih => rwa [List.cons_append, Disk.walk, if_neg (by decide), if_pos rfl]
  | name current parent short there _ ih =>
      rw [List.cons_append, Disk.walk, if_neg current, if_neg parent, if_neg short,
        if_neg (List.append_ne_nil_of_right_ne_nil _ more), there]
      exact ih

/-- A walk through directories leads to the last of them. -/
theorem walk_eq_ok (descends : Descends d.root here ns dir) (slash : Bool) :
    ∃ place, d.walk slash here ns = .ok place ∧ place.directory ++ place.name.toList = dir := by
  induction descends with
  | done => exact ⟨_, rfl, List.append_nil _⟩
  | current _ ih => rwa [Disk.walk, if_pos rfl]
  | parent _ ih => rwa [Disk.walk, if_neg (by decide), if_pos rfl]
  | name current parent short there further ih =>
      rw [Disk.walk, if_neg current, if_neg parent, if_neg short]
      split
      · rename_i last
        subst last
        cases further
        exact ⟨_, rfl, rfl⟩
      · rw [there]
        exact ih

/-- Nothing is missing on such a walk. -/
theorem makeWalk (descends : Descends d.root here ns dir) :
    Disk.makeWalk false here (ns ++ rest) d = Disk.makeWalk false dir rest d := by
  induction descends with
  | done => rfl
  | current _ ih => rwa [List.cons_append, Disk.makeWalk, if_pos rfl]
  | parent _ ih => rwa [List.cons_append, Disk.makeWalk, if_neg (by decide), if_pos rfl]
  | name current parent short there _ ih =>
      rw [List.cons_append, Disk.makeWalk, if_neg current, if_neg parent, if_neg short, there]
      exact ih

/-- A walk that leads to a directory is such a walk. -/
theorem of_walk {place : Place} (walked : d.walk slash here ns = .ok place)
    (there : d.at? place = some (.directory es)) :
    Descends d.root here ns (place.directory ++ place.name.toList) := by
  induction ns generalizing here with
  | nil =>
      cases walked
      exact (List.append_nil here).symm ▸ .done
  | cons name ns ih =>
      rw [Disk.walk] at walked
      split at walked
      · rename_i current
        exact current ▸ .current (ih walked)
      rename_i current
      split at walked
      · rename_i parent
        exact parent ▸ .parent (ih walked)
      rename_i parent
      split at walked
      · cases walked
      rename_i short
      split at walked
      · rename_i last
        cases walked
        exact last ▸ .name current parent short there .done
      split at walked
      · cases walked
      · cases walked
      · rename_i found
        exact .name current parent short found (ih walked)

/-- A walk to a name goes through directories up to it. -/
theorem of_walk_concat {place : Place} {x : String} (isName : Path.IsName x)
    (walked : d.walk slash here (ns ++ [x]) = .ok place) :
    ∃ dir, Descends d.root here ns dir ∧ place = ⟨dir, some x, slash⟩ ∧
      ¬x.utf8ByteSize > maxNameSize := by
  induction ns generalizing here with
  | nil =>
      rw [List.nil_append, Disk.walk, if_neg isName.notCurrent, if_neg isName.notParent] at walked
      split at walked
      · cases walked
      · rename_i short
        cases walked
        exact ⟨here, .done, rfl, short⟩
  | cons name ns ih =>
      rw [List.cons_append, Disk.walk] at walked
      split at walked
      · rename_i current
        obtain ⟨dir, descends, reached⟩ := ih walked
        exact ⟨dir, current ▸ .current descends, reached⟩
      rename_i current
      split at walked
      · rename_i parent
        obtain ⟨dir, descends, reached⟩ := ih walked
        exact ⟨dir, parent ▸ .parent descends, reached⟩
      rename_i parent
      split at walked
      · cases walked
      rename_i short
      rw [if_neg (List.append_ne_nil_of_right_ne_nil _ (List.cons_ne_nil _ _))] at walked
      split at walked
      · cases walked
      · cases walked
      · rename_i there
        obtain ⟨dir, descends, reached⟩ := ih walked
        exact ⟨dir, .name current parent short there descends, reached⟩

/-- A walk stops on its way wherever it is cut. -/
theorem split (descends : Descends root here (ns ++ rest) dir) :
    ∃ mid, Descends root here ns mid ∧ Descends root mid rest dir := by
  induction ns generalizing here with
  | nil => exact ⟨here, .done, descends⟩
  | cons name ns ih =>
      cases descends with
      | current further =>
          obtain ⟨mid, first, second⟩ := ih further
          exact ⟨mid, .current first, second⟩
      | parent further =>
          obtain ⟨mid, first, second⟩ := ih further
          exact ⟨mid, .parent first, second⟩
      | name current parent short there further =>
          obtain ⟨mid, first, second⟩ := ih further
          exact ⟨mid, .name current parent short there first, second⟩

/-- No name on the way to a directory is too long. -/
theorem short (descends : Descends root here ns dir) :
    ∀ name ∈ ns, ¬name.utf8ByteSize > maxNameSize := by
  induction descends with
  | done => exact List.forall_mem_nil _
  | current _ ih => exact List.forall_mem_cons.mpr ⟨by decide, ih⟩
  | parent _ ih => exact List.forall_mem_cons.mpr ⟨by decide, ih⟩
  | name _ _ short _ _ ih => exact List.forall_mem_cons.mpr ⟨short, ih⟩

/-- A walk through plain names arrives where they say, which is a directory if there is any name. -/
theorem straight (areNames : ∀ name ∈ ns, Path.IsName name)
    (descends : Descends root here ns dir) :
    dir = here ++ ns ∧ (ns ≠ [] → ∃ es, root.get? dir = some (.directory es)) := by
  induction descends with
  | done => exact ⟨(List.append_nil _).symm, fun nonempty => absurd rfl nonempty⟩
  | current _ _ => exact absurd rfl (areNames _ List.mem_cons_self).notCurrent
  | parent _ _ => exact absurd rfl (areNames _ List.mem_cons_self).notParent
  | @name here dir rest name es _ _ _ there further ih =>
      obtain ⟨place, last⟩ := ih (List.forall_mem_cons.mp areNames).2
      refine ⟨place.trans (List.append_assoc _ _ _), fun _ => ?_⟩
      by_cases done : rest = []
      · rw [done, List.append_nil] at place
        exact ⟨es, place ▸ there⟩
      · exact last done

end Descends

end Disk

end BudgetedRun
