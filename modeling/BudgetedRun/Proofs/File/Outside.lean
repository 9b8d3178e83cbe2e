import BudgetedRun.Proofs.File.Site

/-!
# Beside a directory

What the operations of a file system notice of a place is whether nothing, a directory or a file is
there, and what the file holds (`Node.seen?`). An operation on a path that leads below a directory
leaves everything beside it as it was, but for directories that are made on the way to it
(`Disk.Spares`). A path that leads elsewhere is read as before, if there is something already, or if
no directory can be made on the way (`Disk.Spares.read_eq`).
-/

namespace BudgetedRun

namespace Node

variable {n child : Node} {f : Node → Node} {x y : String} {xs path : List String}

/-- What a file holds. A directory holds no text. -/
def content? : Node → Option ByteArray
  | .file content => some content
  | .directory _ => none

/-- What is noticed under some names: nothing, a directory, or a file with its content. -/
def seen? (n : Node) (path : List String) : Option (Option ByteArray) := (n.get? path).map content?

/-- A directory that gets an entry holds no text, as before. -/
theorem content?_put : (put x child n).content? = n.content? := by
  cases n <;> rfl

/-- A directory that loses an entry holds no text, as before. -/
theorem content?_drop : (n.drop x).content? = n.content? := by
  cases n <;> rfl

/-- A change under one name in a directory is noticed under that name only. -/
theorem seen?_modify (keeps : ∀ m, (f m).content? = m.content?)
    (others : ∀ m y ys, y ≠ x → (f m).get? (y :: ys) = m.get? (y :: ys))
    (outside : ¬xs ++ [x] <+: path) : (n.modify f xs).seen? path = n.seen? path := by
  induction xs generalizing n path with
  | nil =>
      cases path with
      | nil => exact congrArg some (keeps n)
      | cons y ys =>
          have another : y ≠ x := by
            rintro rfl
            exact outside ⟨ys, rfl⟩
          exact congrArg (Option.map content?) (others n y ys another)
  | cons z zs ih =>
      cases path with
      | nil =>
          cases n with
          | file content => rfl
          | directory es =>
              rw [modify]
              split <;> rfl
      | cons y ys =>
          rw [seen?, seen?, get?_modify_cons]
          split
          · rename_i same
            subst same
            rw [get?_cons]
            cases n.entry? y with
            | none => rfl
            | some child => exact ih fun within => outside (List.cons_prefix_cons.mpr ⟨rfl, within⟩)
          · rfl

/-- A directory that is made where there is nothing is all that is new. -/
theorem seen?_make (missing : n.get? (xs ++ [x]) = none) (path : List String) :
    (n.modify (put x (.directory [])) xs).seen? path = n.seen? path ∨
      path = xs ++ [x] ∧ n.seen? path = none ∧
        (n.modify (put x (.directory [])) xs).seen? path = some none := by
  by_cases inside : xs ++ [x] <+: path
  · obtain ⟨zs, rfl⟩ := inside
    have before : n.seen? (xs ++ [x] ++ zs) = none := by
      rw [seen?, get?_append_of_none missing]
      rfl
    have after := get?_modify_append (put x (.directory [])) n (x :: zs) (Eq.refl xs.length)
    rw [if_pos rfl] at after
    rw [before, List.append_assoc, List.singleton_append, seen?, after]
    cases n.get? xs with
    | none => exact .inl rfl
    | some m =>
        cases m with
        | file content => exact .inl rfl
        | directory es =>
            rw [Option.bind_some, get?_put_cons rfl, if_pos rfl]
            cases zs with
            | nil => exact .inr ⟨rfl, rfl, rfl⟩
            | cons z zs => exact .inl rfl
  · exact .inl (seen?_modify (fun _ => content?_put)
      (fun _ _ ys another => get?_put_of_ne another ys) inside)

end Node

namespace Disk

open BudgetedRun.Path

variable {d d' d'' : Disk} {base path target name : String} {ns here dir more : List String}
  {place : Place} {slash : Bool} {n : Node} {content : ByteArray}

/-- Where a path without `..` leads. -/
def resolve (d : Disk) (path : String) : List String :=
  d.origin path ++ (names path).filter (· ≠ ".")

/-- A walk without `..` goes straight on. -/
theorem walk_straight (plain : ".." ∉ ns) (walked : d.walk slash here ns = .ok place) :
    place.directory ++ place.name.toList = here ++ ns.filter (· ≠ ".") := by
  induction ns generalizing here with
  | nil =>
      cases walked
      rfl
  | cons name ns ih =>
      obtain ⟨ahead, plain⟩ := not_or.mp (mt List.mem_cons.mpr plain)
      rw [walk] at walked
      split at walked
      · rename_i current
        rw [ih plain walked, List.filter_cons_of_neg (by simp [current])]
      rename_i current
      rw [List.filter_cons_of_pos (by simp [current])]
      split at walked
      · rename_i parent
        exact absurd parent.symm ahead
      split at walked
      · cases walked
      split at walked
      · rename_i last
        cases walked
        rw [last]
        rfl
      split at walked
      · cases walked
      · cases walked
      · rw [ih plain walked, List.append_assoc]
        rfl

/-- The place that is found for a path without `..` is where the path leads. -/
theorem resolve_of_locate (plain : ".." ∉ names path) (located : d.locate path = .ok place) :
    place.directory ++ place.name.toList = d.resolve path := by
  rw [locate] at located
  split at located
  · cases located
  split at located
  · cases located
  exact walk_straight plain located

/-- Two walks are the same where the same is noticed on the way. -/
theorem walk_congr (plain : ".." ∉ ns)
    (same : ∀ ms, ms <+: ns.filter (· ≠ ".") →
      d'.root.seen? (here ++ ms) = d.root.seen? (here ++ ms)) :
    d'.walk slash here ns = d.walk slash here ns := by
  induction ns generalizing here with
  | nil => rfl
  | cons name ns ih =>
      obtain ⟨ahead, plain⟩ := not_or.mp (mt List.mem_cons.mpr plain)
      rw [walk, walk]
      by_cases current : name = "."
      · rw [List.filter_cons_of_neg (by simp [current])] at same
        rw [if_pos current, if_pos current]
        exact ih plain same
      rw [List.filter_cons_of_pos (by simp [current])] at same
      rw [if_neg current, if_neg current, if_neg (Ne.symm ahead), if_neg (Ne.symm ahead)]
      have first := same [name] (List.cons_prefix_cons.mpr ⟨rfl, List.nil_prefix⟩)
      have others : d'.walk slash (here ++ [name]) ns = d.walk slash (here ++ [name]) ns := by
        refine ih plain fun ms within => ?_
        have later := same (name :: ms) (List.cons_prefix_cons.mpr ⟨rfl, within⟩)
        rwa [List.append_cons] at later
      rw [Node.seen?, Node.seen?] at first
      split
      · rfl
      split
      · rfl
      cases there : d.root.get? (here ++ [name]) with
      | none =>
          rw [there] at first
          rw [Option.map_eq_none_iff.mp first]
      | some m =>
          rw [there] at first
          obtain ⟨m', there', kind⟩ := Option.map_eq_some_iff.mp first
          rw [there']
          cases m <;> cases m' <;> first | rfl | exact others | cases kind

/-- What is found at a path depends on what is noticed where it leads. -/
theorem find_congr_of_locate (located : d.locate path = .ok place)
    (located' : d'.locate path = .ok place)
    (same : (d'.at? place).map Node.content? = (d.at? place).map Node.content?) :
    (d'.find path).map Node.content? = (d.find path).map Node.content? := by
  rw [find, find, located, located']
  simp only
  cases there : d.at? place with
  | none =>
      rw [there] at same
      rw [Option.map_eq_none_iff.mp same]
  | some m =>
      rw [there] at same
      obtain ⟨m', there', kind⟩ := Option.map_eq_some_iff.mp same
      rw [there']
      cases m <;> cases m' <;> cases kind <;> rfl

/-- What is found at a path depends on what is noticed on the way to it. -/
theorem find_congr (current : d'.current = d.current) (plain : ".." ∉ names path)
    (same : ∀ place, place <+: d.resolve path → d.origin path <+: place →
      d'.root.seen? place = d.root.seen? place) :
    (d'.find path).map Node.content? = (d.find path).map Node.content? := by
  have origin : d'.origin path = d.origin path := by rw [Disk.origin, Disk.origin, current]
  have located : d'.locate path = d.locate path := by
    rw [locate, locate, origin]
    split
    · rfl
    split
    · rfl
    refine walk_congr plain fun ms within => ?_
    exact same _ ((List.prefix_append_right_inj _).mpr within) (List.prefix_append _ _)
  cases reached : d.locate path with
  | error e => rw [find, find, located, reached]
  | ok place =>
      have seen := same (d.resolve path) (List.prefix_refl _) (List.prefix_append _ _)
      rw [← resolve_of_locate plain reached] at seen
      exact find_congr_of_locate reached (located.trans reached) seen

/-- What is present has a node where its path leads. -/
theorem exists_of_isPresent (plain : ".." ∉ names path) (present : d.isPresent path = true) :
    ∃ m, d.root.get? (d.resolve path) = some m := by
  obtain ⟨m, found⟩ := find_of_isPresent present
  obtain ⟨place, located, there⟩ := find_ok found
  exact ⟨m, resolve_of_locate plain located ▸ there⟩

/-- Two disks with the same file or directory at a path are read alike there. -/
theorem read_congr (same : (d'.find path).map Node.content? = (d.find path).map Node.content?) :
    d'.read path = d.read path ∧ d'.isPresent path = d.isPresent path := by
  rw [read, read, isPresent, isPresent]
  cases found : d.find path with
  | error e =>
      cases found' : d'.find path with
      | error e' =>
          rw [found, found'] at same
          cases same
          exact ⟨rfl, rfl⟩
      | ok m' =>
          rw [found, found'] at same
          cases same
  | ok m =>
      cases found' : d'.find path with
      | error e' =>
          rw [found, found'] at same
          cases same
      | ok m' =>
          rw [found, found'] at same
          cases m <;> cases m' <;> cases same <;> exact ⟨rfl, rfl⟩

namespace Below

/-- A path below another one leads below where that leads. -/
theorem resolve_eq (below : Below base path more) (d : Disk) :
    d.resolve path = d.resolve base ++ more := by
  have plain : more.filter (· ≠ ".") = more :=
    List.filter_eq_self.mpr fun name member =>
      decide_eq_true (below.areNames name member).notCurrent
  have origin : d.origin path = d.origin base := by rw [origin, origin, below.rooted]
  rw [resolve, resolve, origin, below.names, List.filter_append, plain, List.append_assoc]

/-- A path below a base directory has no `..` if the path of the base has none. -/
theorem plain (below : Below base path more) (plain : ".." ∉ Disk.names base) :
    ".." ∉ Disk.names path := by
  rw [below.names, List.mem_append, not_or]
  exact ⟨plain, fun member => (below.areNames _ member).notParent rfl⟩

end Below

/-- A directory that is made where there is nothing is all that is new on the disk. -/
theorem seen?_make (missing : d.root.get? (dir ++ [name]) = none) (place : List String) :
    (d.put dir name (.directory [])).root.seen? place = d.root.seen? place ∨
      place = dir ++ [name] ∧ d.root.seen? place = none ∧
        (d.put dir name (.directory [])).root.seen? place = some none :=
  Node.seen?_make missing place

/-- Only what is at or below the directory that a path leads to has changed, and directories on the
way to it may be new. -/
structure Spares (base : String) (d d' : Disk) : Prop where
  current : d'.current = d.current
  aside : ∀ place, ¬d.resolve base <+: place →
    d'.root.seen? place = d.root.seen? place ∨
      d.root.seen? place = none ∧ d'.root.seen? place = some none ∧
        d.origin base <+: place ∧ place ≠ d.origin base ∧ place <+: d.resolve base

namespace Spares

theorem refl (base : String) (d : Disk) : d.Spares base d := ⟨rfl, fun _ _ => .inl rfl⟩

theorem origin_eq (spares : d.Spares base d') (path : String) : d'.origin path = d.origin path := by
  rw [origin, origin, spares.current]

/-- Paths lead to the same names afterwards. -/
theorem resolve_eq (spares : d.Spares base d') (path : String) :
    d'.resolve path = d.resolve path := by
  rw [resolve, resolve, spares.origin_eq]

theorem trans (first : d.Spares base d') (second : d'.Spares base d'') : d.Spares base d'' where
  current := second.current.trans first.current
  aside place outside := by
    have second := second.aside place (first.resolve_eq base ▸ outside)
    rw [first.origin_eq, first.resolve_eq] at second
    rcases first.aside place outside with same | ⟨missing, made, between⟩
    · rwa [same] at second
    · rcases second with same | ⟨missing', _⟩
      · exact .inr ⟨missing, same.trans made, between⟩
      · cases made.symm.trans missing'

/-- Something put at or below where the path leads is nothing new elsewhere. -/
theorem put (place : dir ++ [name] = d.resolve base ++ more) (t : Tree) :
    d.Spares base (d.put dir name t) where
  current := rfl
  aside _ outside := by
    refine .inl (Node.seen?_modify (fun _ => Node.content?_put)
      (fun _ _ ys another => Node.get?_put_of_ne another ys) fun within => outside ?_)
    exact (place ▸ List.prefix_append _ more).trans within

/-- To drop an entry below the base directory changes nothing else. -/
theorem drop (place : dir ++ [name] = d.resolve base ++ more) :
    d.Spares base (d.drop dir name) where
  current := rfl
  aside _ outside := by
    refine .inl (Node.seen?_modify (fun _ => Node.content?_drop)
      (fun _ _ ys another => Node.get?_drop_of_ne another ys) fun within => outside ?_)
    exact (place ▸ List.prefix_append _ more).trans within

section operations

variable (plain : ".." ∉ names base) (below : Below base path more)

include plain below

/-- A place that is found for a path below the base directory is below the base directory. -/
theorem resolve_of_locate (located : d.locate path = .ok ⟨dir, some name, slash⟩) :
    dir ++ [name] = d.resolve base ++ more :=
  (Disk.resolve_of_locate (below.plain plain) located).trans (below.resolve_eq d)

/-- A file that is written below the base directory changes nothing else. -/
theorem write (written : d.write path content = .ok d') : d.Spares base d' := by
  obtain ⟨dir, name, located, _, _, rfl⟩ := write_ok written
  exact put (resolve_of_locate plain below located) _

/-- A file that is removed below the base directory changes nothing else. -/
theorem remove (removed : d.remove path = .ok d') : d.Spares base d' := by
  obtain ⟨dir, name, slash, content, located, _, rfl⟩ := remove_ok removed
  exact drop (resolve_of_locate plain below located)

/-- A file that is renamed below the base directory changes nothing else. -/
theorem rename {more' : List String} (below' : Below base target more')
    (renamed : d.rename path target = .ok d') : d.Spares base d' := by
  obtain ⟨dir, name, slash, dir', name', slash', t, located, located', _, _, _, rfl⟩ :=
    rename_ok renamed
  have dropped : d.Spares base (d.drop dir name) := drop (resolve_of_locate plain below located)
  have place : dir' ++ [name'] = d.resolve base ++ more' :=
    resolve_of_locate plain below' located'
  exact dropped.trans (put (d := d.drop dir name) place t)

end operations

/-- Directories that are made on a straight walk are all that is new. -/
theorem seen?_makeWalk (plain : ".." ∉ ns) (missed : Bool) (d : Disk) :
    (makeWalk missed here ns d).2.current = d.current ∧
    ∀ place, (makeWalk missed here ns d).2.root.seen? place = d.root.seen? place ∨
      d.root.seen? place = none ∧ (makeWalk missed here ns d).2.root.seen? place = some none ∧
        ∃ ms, ms ≠ [] ∧ ms <+: ns.filter (· ≠ ".") ∧ place = here ++ ms := by
  induction ns generalizing here missed d with
  | nil => exact ⟨rfl, fun _ => .inl rfl⟩
  | cons name ns ih =>
      obtain ⟨ahead, plain⟩ := not_or.mp (mt List.mem_cons.mpr plain)
      rw [makeWalk]
      by_cases current : name = "."
      · rw [if_pos current, List.filter_cons_of_neg (by simp [current])]
        exact ih plain missed d
      rw [if_neg current, if_neg (Ne.symm ahead), List.filter_cons_of_pos (by simp [current])]
      -- What the rest of the walk makes, it makes further down.
      have further {place : List String} (rest : ∃ ms, ms ≠ [] ∧ ms <+: ns.filter (· ≠ ".") ∧
          place = here ++ [name] ++ ms) :
          ∃ ms, ms ≠ [] ∧ ms <+: name :: ns.filter (· ≠ ".") ∧ place = here ++ ms := by
        obtain ⟨ms, _, within, rfl⟩ := rest
        exact ⟨name :: ms, List.cons_ne_nil _ _, List.cons_prefix_cons.mpr ⟨rfl, within⟩,
          List.append_assoc _ _ _⟩
      split
      · exact ⟨rfl, fun _ => .inl rfl⟩
      split
      · rename_i missing
        split
        · obtain ⟨still, rest⟩ := @ih (here ++ [name]) plain true (d.put here name (.directory []))
          refine ⟨still, fun place => ?_⟩
          rcases seen?_make missing place with same | ⟨rfl, nothing, made⟩
          · exact same ▸ (rest place).imp_right (And.imp_right (And.imp_right further))
          · refine .inr ⟨nothing, ?_, [name], List.cons_ne_nil _ _,
              List.cons_prefix_cons.mpr ⟨rfl, List.nil_prefix⟩, rfl⟩
            rcases rest (here ++ [name]) with same | ⟨nothing', _⟩
            · exact same.trans made
            · cases made.symm.trans nothing'
        · exact ⟨rfl, fun _ => .inl rfl⟩
      · obtain ⟨still, rest⟩ := @ih (here ++ [name]) plain missed d
        exact ⟨still, fun place => (rest place).imp_right (And.imp_right (And.imp_right further))⟩
      · exact ⟨rfl, fun _ => .inl rfl⟩

/-- Directories on the way to a path are all that is new after they were made. -/
theorem seen?_makeDirectories (plain : ".." ∉ names path) (d : Disk) :
    (d.makeDirectories path).2.current = d.current ∧
    ∀ place, (d.makeDirectories path).2.root.seen? place = d.root.seen? place ∨
      d.root.seen? place = none ∧ (d.makeDirectories path).2.root.seen? place = some none ∧
        d.origin path <+: place ∧ place ≠ d.origin path ∧ place <+: d.resolve path := by
  rw [Disk.makeDirectories]
  split
  · exact ⟨rfl, fun _ => .inl rfl⟩
  obtain ⟨current, made⟩ := @seen?_makeWalk (names path) (d.origin path) plain false d
  refine ⟨current, fun place => (made place).imp_right ?_⟩
  rintro ⟨missing, made, ms, nonempty, within, rfl⟩
  have moved : d.origin path ++ ms ≠ d.origin path :=
    fun same => nonempty (List.append_right_eq_self.mp same)
  exact ⟨missing, made, List.prefix_append _ _, moved,
    (List.prefix_append_right_inj _).mpr within⟩

/-- To make directories down to one below the base changes nothing else. -/
theorem makeDirectories (plain : ".." ∉ names base) (below : Below base path more) (d : Disk) :
    d.Spares base (d.makeDirectories path).2 := by
  obtain ⟨current, made⟩ := seen?_makeDirectories (below.plain plain) d
  have origin : d.origin path = d.origin base := by rw [origin, origin, below.rooted]
  rw [origin, below.resolve_eq] at made
  refine ⟨current, fun place outside => (made place).imp_right ?_⟩
  rintro ⟨missing, made, above, deeper, within⟩
  exact ⟨missing, made, above, deeper,
    (List.prefix_or_prefix_of_prefix within (List.prefix_append _ more)).resolve_right outside⟩

/-- The directories above something may be new too. -/
theorem makeDirectories_above (plain : ".." ∉ names path) (below : Below path target more)
    (d : Disk) :
    d.Spares target (d.makeDirectories path).2 := by
  obtain ⟨current, made⟩ := seen?_makeDirectories plain d
  have origin : d.origin path = d.origin target := by rw [Disk.origin, Disk.origin, below.rooted]
  rw [origin] at made
  refine ⟨current, fun place _ => (made place).imp_right ?_⟩
  rintro ⟨missing, made, above, deeper, within⟩
  exact ⟨missing, made, above, deeper,
    within.trans (below.resolve_eq d ▸ List.prefix_append _ _)⟩

/-- A path that leads neither to the directory nor below it is read as before, if there was
something already, or if nothing lies between the directory and where its path starts. -/
theorem read_eq (spares : d.Spares base d') (plain : ".." ∉ names path)
    (apart : ¬d.resolve base <+: d.resolve path)
    (known : d.isPresent path = true ∨ ∃ name, d.resolve base = d.origin base ++ [name]) :
    d'.read path = d.read path ∧ d'.isPresent path = d.isPresent path := by
  refine read_congr (find_congr spares.current plain fun place within further => ?_)
  have outside : ¬d.resolve base <+: place := fun below => apart (below.trans within)
  refine (spares.aside place outside).resolve_right ?_
  rintro ⟨missing, _, above, deeper, toward⟩
  rcases known with present | ⟨name, single⟩
  · obtain ⟨m, there⟩ := exists_of_isPresent plain present
    obtain ⟨rest, further⟩ := within
    rw [Node.seen?, Option.map_eq_none_iff] at missing
    rw [← further, Node.get?_append_of_none missing] at there
    cases there
  · obtain ⟨rest, rfl⟩ := above
    rw [single, List.prefix_append_right_inj] at toward
    rcases List.prefix_cons_iff.mp toward with rfl | ⟨more, rfl, nothing⟩
    · exact deeper (List.append_nil _)
    · rw [List.prefix_nil.mp nothing, ← single] at outside
      exact outside (List.prefix_refl _)

end Spares

end Disk

end BudgetedRun
