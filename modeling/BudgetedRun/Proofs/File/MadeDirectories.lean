import BudgetedRun.Proofs.File.Outside

/-!
# Where directories were made

Directories that were made on the way to some path are there for other paths too. A path that passes
through one was not found before. Now it goes on, through directories that are empty but for the
next one, and is not found further down, unless a name that is too long comes first
(`Disk.find_made`).
-/

namespace BudgetedRun

namespace Disk

open BudgetedRun.Path

variable {d d' : Disk} {base path target : String} {ns here more : List String} {slash : Bool}
  {place : Place} {content : ByteArray} {e : FileError}

/-- At a place of two trees the same is noticed, or a directory that only the second one has. -/
def SameOrMade (d d' : Disk) (place : List String) : Prop :=
  d'.root.seen? place = d.root.seen? place ∨
    d.root.seen? place = none ∧ d'.root.seen? place = some none

/-- Some name is too long for a file. -/
def Overlong (ns : List String) : Prop := ∃ name ∈ ns, maxNameSize < name.utf8ByteSize

/-- A name that is too long is so after another name. -/
theorem Overlong.cons {name : String} (overlong : Overlong ns) : Overlong (name :: ns) := by
  obtain ⟨long, member, exceeds⟩ := overlong
  exact ⟨long, List.mem_cons_of_mem _ member, exceeds⟩

/-- Nothing is noticed below nothing. -/
theorem seen?_append_of_none {n : Node} {xs : List String} (missing : n.seen? xs = none)
    (ys : List String) : n.seen? (xs ++ ys) = none := by
  rw [Node.seen?, Option.map_eq_none_iff] at missing ⊢
  exact Node.get?_append_of_none missing ys

/-- Why a straight walk fails. -/
theorem walk_error (plain : ".." ∉ ns) (failed : d.walk slash here ns = .error e) :
    e = .notFound ∨ e = .nameTooLong ∧ Overlong ns ∨
      ∃ ms content, ms <+: ns.filter (· ≠ ".") ∧
        d.root.seen? (here ++ ms) = some (some content) := by
  induction ns generalizing here with
  | nil => cases failed
  | cons name ns ih =>
      obtain ⟨ahead, plain⟩ := not_or.mp (mt List.mem_cons.mpr plain)
      rw [walk] at failed
      by_cases current : name = "."
      · rw [if_pos current] at failed
        rw [List.filter_cons_of_neg (by simp [current])]
        exact (ih plain failed).imp_right (Or.imp_left (And.imp_right .cons))
      rw [if_neg current, if_neg (Ne.symm ahead)] at failed
      rw [List.filter_cons_of_pos (by simp [current])]
      split at failed
      · rename_i long
        cases failed
        exact .inr (.inl ⟨rfl, name, List.mem_cons_self, long⟩)
      split at failed
      · cases failed
      split at failed
      · cases failed
        exact .inl rfl
      · rename_i content there
        refine .inr (.inr ⟨[name], content, List.cons_prefix_cons.mpr ⟨rfl, List.nil_prefix⟩, ?_⟩)
        rw [Node.seen?, there]
        rfl
      · rcases ih plain failed with missing | long | ⟨ms, content, within, there⟩
        · exact .inl missing
        · exact .inr (.inl (long.imp_right .cons))
        · refine .inr (.inr ⟨name :: ms, content, List.cons_prefix_cons.mpr ⟨rfl, within⟩, ?_⟩)
          rwa [List.append_cons]

/-- Where a directory was made on its way, a walk went no further before. -/
theorem walk_made (plain : ".." ∉ ns)
    (fresh : ∀ ms, ms <+: ns.filter (· ≠ ".") → SameOrMade d d' (here ++ ms)) :
    d'.walk slash here ns = d.walk slash here ns ∨
      d.walk slash here ns = .error .notFound ∧
        d.root.seen? (here ++ ns.filter (· ≠ ".")) = none ∧
        (d'.walk slash here ns = .error .nameTooLong ∧ Overlong ns ∨
          ∃ place, d'.walk slash here ns = .ok place) := by
  induction ns generalizing here with
  | nil => exact .inl rfl
  | cons name ns ih =>
      obtain ⟨ahead, plain⟩ := not_or.mp (mt List.mem_cons.mpr plain)
      rw [walk, walk]
      by_cases current : name = "."
      · rw [List.filter_cons_of_neg (by simp [current])] at fresh ⊢
        rw [if_pos current, if_pos current]
        exact (ih plain fresh).imp_right
          (And.imp_right (And.imp_right (Or.imp_left (And.imp_right .cons))))
      rw [List.filter_cons_of_pos (by simp [current])] at fresh ⊢
      rw [if_neg current, if_neg current, if_neg (Ne.symm ahead), if_neg (Ne.symm ahead)]
      have first := fresh [name] (List.cons_prefix_cons.mpr ⟨rfl, List.nil_prefix⟩)
      have later {ms : List String} (within : ms <+: ns.filter (· ≠ ".")) :
          SameOrMade d d' (here ++ [name] ++ ms) := by
        have further := fresh (name :: ms) (List.cons_prefix_cons.mpr ⟨rfl, within⟩)
        rwa [List.append_cons] at further
      split
      · exact .inl rfl
      split
      · exact .inl rfl
      rcases first with same | ⟨missing, made⟩
      · -- The walks go on together, or end here for the same reason.
        have onward := (ih plain fun ms => later).imp_right
          (And.imp_right (And.imp_right (Or.imp_left (And.imp_right (@Overlong.cons ns name)))))
        rw [List.append_cons here name (ns.filter _)]
        rw [Node.seen?, Node.seen?] at same
        cases there : d.root.get? (here ++ [name]) with
        | none =>
            rw [there] at same
            rw [Option.map_eq_none_iff.mp same]
            exact .inl rfl
        | some m =>
            rw [there] at same
            obtain ⟨m', there', kind⟩ := Option.map_eq_some_iff.mp same
            rw [there']
            cases m <;> cases m' <;> first | exact .inl rfl | exact onward | cases kind
      · -- Only the second walk goes on, and finds no file on its way.
        have nothing (ms : List String) := seen?_append_of_none missing ms
        rw [Node.seen?] at missing made
        obtain ⟨m', there', kind⟩ := Option.map_eq_some_iff.mp made
        rw [Option.map_eq_none_iff.mp missing, there']
        cases m' with
        | file content => cases kind
        | directory es =>
            simp only
            rw [List.append_cons here name (ns.filter _)]
            cases went : d'.walk slash (here ++ [name]) ns with
            | ok place => exact .inr ⟨trivial, nothing _, .inr ⟨place, rfl⟩⟩
            | error e =>
                rcases walk_error plain went with rfl | ⟨rfl, long⟩ | ⟨ms, content, within, there⟩
                · exact .inl rfl
                · exact .inr ⟨trivial, nothing _, .inl ⟨rfl, long.cons⟩⟩
                · rcases later within with same | ⟨_, made⟩
                  · cases (nothing ms).symm.trans (same.symm.trans there)
                  · cases made.symm.trans there

/-- Nothing is found at a path whose place is not found. -/
theorem find_of_locate_error (failed : d.locate path = .error e) : d.find path = .error e := by
  rw [find, failed]

/-- What is found at a path without `..` is where its names lead. -/
theorem get?_of_find {n : Node} (plain : ".." ∉ names path) (found : d.find path = .ok n) :
    d.root.get? (d.resolve path) = some n := by
  obtain ⟨place, located, there⟩ := find_ok found
  exact resolve_of_locate plain located ▸ there

/-- A path where nothing is leads to nothing, if it leads anywhere. -/
theorem find_of_missing (plain : ".." ∉ names path) (missing : d.root.seen? (d.resolve path) = none)
    (located : d.locate path = .ok place) : d.find path = .error .notFound := by
  rw [Node.seen?, Option.map_eq_none_iff, ← resolve_of_locate plain located] at missing
  have nothing : d.at? place = none := missing
  rw [find, located]
  simp only [nothing]

/-- Where a directory is, it is found by a path that leads there. -/
theorem find_of_directory (plain : ".." ∉ names path)
    (there : d.root.seen? (d.resolve path) = some none) (located : d.locate path = .ok place) :
    ∃ es, d.find path = .ok (.directory es) := by
  rw [Node.seen?, ← resolve_of_locate plain located] at there
  obtain ⟨m, found, kind⟩ := Option.map_eq_some_iff.mp there
  cases m with
  | file content => cases kind
  | directory es =>
      have found : d.at? place = some (.directory es) := found
      refine ⟨es, ?_⟩
      rw [find, located]
      simp only [found]

/-- A path finds the same as before directories were made, unless it found nothing and passes
through one of them. Then it finds a directory only if this was made itself. -/
theorem find_made (current : d'.current = d.current) (plain : ".." ∉ names path)
    (fresh : ∀ place, place <+: d.resolve path → SameOrMade d d' place) :
    (d'.find path).map Node.content? = (d.find path).map Node.content? ∨
      d.find path = .error .notFound ∧ d.root.seen? (d.resolve path) = none ∧
        (d'.find path = .error .nameTooLong ∧ Overlong (names path) ∨
          ∃ es, d'.find path = .ok (.directory es)) := by
  have origin : d'.origin path = d.origin path := by rw [Disk.origin, Disk.origin, current]
  have resolve : d'.resolve path = d.resolve path := by rw [Disk.resolve, Disk.resolve, origin]
  have arrived := fresh _ (List.prefix_refl _)
  have located : d'.locate path = d.locate path ∨
      d.locate path = .error .notFound ∧ d.root.seen? (d.resolve path) = none ∧
        (d'.locate path = .error .nameTooLong ∧ Overlong (names path) ∨
          ∃ place, d'.locate path = .ok place) := by
    rw [locate, locate, origin]
    split
    · exact .inl rfl
    split
    · exact .inl rfl
    refine walk_made plain fun ms within => ?_
    exact fresh _ ((List.prefix_append_right_inj _).mpr within)
  rcases located with located | ⟨failed, missing, ⟨failed', long⟩ | ⟨place, located'⟩⟩
  · cases reached : d.locate path with
    | error e =>
        rw [find_of_locate_error reached, find_of_locate_error (located.trans reached)]
        exact .inl rfl
    | ok place =>
        have reached' := located.trans reached
        rcases arrived with same | ⟨missing, made⟩
        · rw [← resolve_of_locate plain reached] at same
          exact .inl (find_congr_of_locate reached reached' same)
        · exact .inr ⟨find_of_missing plain missing reached, missing,
            .inr (find_of_directory plain (resolve ▸ made) reached')⟩
  · exact .inr ⟨find_of_locate_error failed, missing, .inl ⟨find_of_locate_error failed', long⟩⟩
  · rcases arrived with same | ⟨_, made⟩
    · rw [missing, ← resolve] at same
      rw [find_of_locate_error failed, find_of_missing plain same located']
      exact .inl rfl
    · exact .inr ⟨find_of_locate_error failed, missing,
        .inr (find_of_directory plain (resolve ▸ made) located')⟩

/-- What is listed depends on the entries only, if there is a directory. -/
theorem list_congr (same : (d'.find path).map Node.content? = (d.find path).map Node.content?) :
    (∃ e, d.list path = .error e ∧ d'.list path = .error e) ∨
      ∃ es es', d.find path = .ok (.directory es) ∧ d'.find path = .ok (.directory es') := by
  rw [list, list]
  cases found : d.find path with
  | error e =>
      cases found' : d'.find path with
      | error e' =>
          rw [found, found'] at same
          cases same
          exact .inl ⟨e, rfl, rfl⟩
      | ok m' =>
          rw [found, found'] at same
          cases same
  | ok m =>
      cases found' : d'.find path with
      | error e' =>
          rw [found, found'] at same
          cases same
      | ok m' =>
          rw [found, found'] at same
          cases m <;> cases m' <;> cases same
          · exact .inl ⟨.notADirectory, rfl, rfl⟩
          · exact .inr ⟨_, _, rfl, rfl⟩

/-- Where directories were made, what is read at other paths is what was read there, unless it was
not found and now a name on its way is too long. Whether something is there has not changed. -/
theorem read_made (current : d'.current = d.current) (plain : ".." ∉ names path)
    (fresh : ∀ place, place <+: d.resolve path → SameOrMade d d' place)
    (same : d'.root.seen? (d.resolve path) = d.root.seen? (d.resolve path)) :
    (d'.read path = d.read path ∨ d.read path = .error .notFound ∧
      d'.read path = .error .nameTooLong ∧ Overlong (names path)) ∧
      d'.isPresent path = d.isPresent path := by
  rcases find_made current plain fresh with unchanged | ⟨lost, missing, found⟩
  · obtain ⟨read, present⟩ := read_congr unchanged
    exact ⟨.inl read, present⟩
  rcases found with ⟨lost', long⟩ | ⟨es, found⟩
  · rw [read, read, isPresent, isPresent, lost, lost']
    exact ⟨.inr ⟨rfl, rfl, long⟩, rfl⟩
  · have there := get?_of_find plain found
    have resolve : d'.resolve path = d.resolve path := by
      rw [Disk.resolve, Disk.resolve, origin, origin, current]
    rw [resolve] at there
    rw [missing, Node.seen?, there] at same
    cases same

/-- A file that is not below what has changed is read as before, unless it was not found and now a
name on its way is too long. Whether it is there has not changed. -/
theorem Spares.read_aside (spares : d.Spares base d') (plain : ".." ∉ names path)
    (apart : ¬d.resolve base <+: d.resolve path) (apart' : ¬d.resolve path <+: d.resolve base) :
    (d'.read path = d.read path ∨ d.read path = .error .notFound ∧
      d'.read path = .error .nameTooLong ∧ Overlong (names path)) ∧
      d'.isPresent path = d.isPresent path := by
  have fresh {place : List String} (within : place <+: d.resolve path) :=
    spares.aside place fun below => apart (below.trans within)
  refine read_made spares.current plain (fun place within => ?_) ?_
  · exact (fresh within).imp_right fun made => ⟨made.1, made.2.1⟩
  · exact (fresh (List.prefix_refl _)).resolve_right fun made => apart' made.2.2.2.2

end Disk

end BudgetedRun
