import BudgetedRun.Proofs.File.Tree

/-!
# Below a directory

A directory that a path leads to, and the tree in it (`Disk.Site`). A path to something below it is
walked from there; what is read and changed by way of such paths is read and changed in that tree.
-/

namespace BudgetedRun

/-- The tree with a directory under a name in one of its directories, made if there is nothing
under that name. -/
def Node.grow (n : Node) (ms : List String) (x : String) : Node :=
  if (n.get? (ms ++ [x])).isNone then n.modify (Node.put x (.directory [])) ms else n

namespace Disk

open BudgetedRun.Path

/-- A path is another one, followed by some names. -/
structure Below (base path : String) (more : List String) : Prop where
  names : names path = names base ++ more
  rooted : isRooted path = isRooted base
  last : path.toList.getLast? ≠ some '/'
  areNames : ∀ name ∈ more, IsName name
  nonempty : path ≠ ""

/-- A path that can be walked: it is not too long, and none of its names is. -/
structure Admissible (path : String) : Prop where
  faultless : pathFault? path = none
  short : ∀ name ∈ names path, ¬name.utf8ByteSize > maxNameSize

instance (path : String) : Decidable (Admissible path) :=
  decidable_of_iff (pathFault? path = none ∧ ∀ name ∈ names path, ¬name.utf8ByteSize > maxNameSize)
    ⟨fun both => ⟨both.1, both.2⟩, fun admissible => ⟨admissible.faultless, admissible.short⟩⟩

/-- A path leads to a directory that has some tree in it. -/
structure Site (d : Disk) (base : String) (dir : List String) (n : Node) : Prop where
  nonempty : base ≠ ""
  arrives : Descends d.root (d.origin base) (names base) dir
  found : d.root.get? dir = some n

variable {d : Disk} {base path name x : String} {dir ms more : List String} {n : Node}
  {f : Node → Node} {es : List (String × Node)}

namespace Below

/-- A name in the base directory is below it. -/
theorem join (nonempty : base ≠ "") (isName : IsName name) :
    Below base (Path.join base name) [name] where
  names := names_join isName nonempty
  rooted := isRooted_join isName nonempty
  last := by
    rw [getLast?_join isName nonempty]
    exact isName.getLast?_ne
  areNames := List.forall_mem_singleton.mpr isName
  nonempty := join_ne_empty isName nonempty

/-- A name in a directory below the base is below it. -/
theorem join' (below : Below base path more) (isName : IsName name) :
    Below base (Path.join path name) (more ++ [name]) where
  names := by rw [names_join isName below.nonempty, below.names, List.append_assoc]
  rooted := (isRooted_join isName below.nonempty).trans below.rooted
  last := by
    rw [getLast?_join isName below.nonempty]
    exact isName.getLast?_ne
  areNames := List.forall_mem_append.mpr ⟨below.areNames, List.forall_mem_singleton.mpr isName⟩
  nonempty := join_ne_empty isName below.nonempty

/-- A path is below itself. -/
theorem refl (below : Below base path more) : Below path path [] where
  names := (List.append_nil _).symm
  rooted := rfl
  last := below.last
  areNames := List.forall_mem_nil _
  nonempty := below.nonempty

/-- No name in a path that is short enough for the operating system is too long. -/
theorem short (below : Below base path more) (admissible : Admissible path) :
    ∀ name ∈ more, ¬name.utf8ByteSize > maxNameSize := by
  intro name member
  apply admissible.short
  rw [below.names]
  exact List.mem_append_right _ member

end Below

namespace Admissible

/-- A path with a name at its end starts with the path. -/
theorem exists_append (isName : IsName name) (nonempty : base ≠ "") :
    ∃ s, Path.join base name = base ++ s := by
  rw [Path.join, isName.isRooted_eq_false, if_neg Bool.false_ne_true, if_neg nonempty]
  split
  · exact ⟨name, rfl⟩
  · exact ⟨"/" ++ name, String.append_assoc⟩

/-- If nothing keeps a path from being walked, nothing keeps the path that it goes on from. -/
theorem pathFault?_of_join (nonempty : base ≠ "") (isName : IsName name)
    (faultless : pathFault? (Path.join base name) = none) : pathFault? base = none := by
  obtain ⟨s, joined⟩ := exists_append isName nonempty
  rw [joined, pathFault?, String.toList_append, String.utf8ByteSize_append] at faultless
  rw [pathFault?]
  split at faultless
  · cases faultless
  rename_i clean
  split at faultless
  · cases faultless
  rename_i fits
  rw [if_neg fun bad => clean (List.mem_append_left _ bad), if_neg (by omega)]

/-- If a path can be walked, so can the path that it goes on from. -/
theorem of_join (nonempty : base ≠ "") (isName : IsName name)
    (admissible : Admissible (Path.join base name)) : Admissible base := by
  constructor
  · exact pathFault?_of_join nonempty isName admissible.faultless
  · intro name member
    apply admissible.short
    rw [names_join isName nonempty]
    exact List.mem_append_left _ member

end Admissible

/-- Names that lead to a directory are walked through. -/
theorem Descends.of_get? {root : Node} {here : List String} (areNames : ∀ name ∈ ms, IsName name)
    (short : ∀ name ∈ ms, ¬name.utf8ByteSize > maxNameSize)
    (found : root.get? (here ++ ms) = some (.directory es)) :
    Descends root here ms (here ++ ms) := by
  induction ms generalizing here with
  | nil => exact (List.append_nil here).symm ▸ .done
  | cons name ms ih =>
      obtain ⟨isName, areNames⟩ := List.forall_mem_cons.mp areNames
      obtain ⟨notLong, short⟩ := List.forall_mem_cons.mp short
      rw [List.append_cons] at found ⊢
      obtain ⟨es', there⟩ := Node.exists_directory_of_get?_append found
      exact .name isName.notCurrent isName.notParent notLong there (ih areNames short found)

namespace Site

/-- What can be listed is a directory. -/
theorem of_list {names : List String} (listed : d.list base = .ok names) :
    ∃ dir es, d.Site base dir (.directory es) ∧ es.map (·.1) = names := by
  obtain ⟨es, found, same⟩ := find_of_list listed
  obtain ⟨place, located, there⟩ := find_ok found
  rw [Disk.locate] at located
  split at located
  · cases located
  rename_i nonempty
  split at located
  · cases located
  · exact ⟨_, es, ⟨nonempty, .of_walk located there, there⟩, same⟩

/-- The directory itself is what its path leads to. -/
theorem find_self (site : d.Site base dir (.directory es)) (faultless : pathFault? base = none) :
    d.find base = .ok (.directory es) := by
  obtain ⟨place, walked, arrived⟩ := site.arrives.walk_eq_ok (base.toList.getLast? == some '/')
  have there : d.at? place = some (.directory es) := by rw [at?, arrived, site.found]
  rw [find, Disk.locate, if_neg site.nonempty, faultless]
  simp only [walked, there]

/-- A path that leads to a name in a directory below shows that the directories above are there. -/
theorem of_locate {place : Place} (nonempty : base ≠ "") (below : Below base path (ms ++ [x]))
    (deep : ms ≠ []) (located : d.locate path = .ok place) :
    ∃ dir n es, d.Site base dir n ∧ n.get? ms = some (.directory es) ∧
      place = ⟨dir ++ ms, some x, false⟩ ∧ Admissible path := by
  obtain ⟨areNames, isName⟩ := List.forall_mem_append.mp below.areNames
  have origin : d.origin path = d.origin base := by
    rw [Disk.origin, below.rooted, Disk.origin]
  have slash : (path.toList.getLast? == some '/') = false := beq_eq_false_iff_ne.mpr below.last
  rw [Disk.locate, if_neg below.nonempty] at located
  split at located
  · cases located
  rename_i faultless
  rw [slash, origin, below.names, ← List.append_assoc] at located
  obtain ⟨dir', descends, rfl, notLong⟩ :=
    Descends.of_walk_concat (isName x List.mem_cons_self) located
  obtain ⟨dir, arrives, onward⟩ := descends.split
  obtain ⟨rfl, last⟩ := onward.straight areNames
  obtain ⟨es, there⟩ := last deep
  rw [Node.get?_append] at there
  obtain ⟨n, found, there⟩ := Option.bind_eq_some_iff.mp there
  refine ⟨dir, n, es, ⟨nonempty, arrives, found⟩, there, rfl, faultless, ?_⟩
  rw [below.names, ← List.append_assoc]
  exact List.forall_mem_append.mpr ⟨descends.short, List.forall_mem_singleton.mpr notLong⟩

/-- What is below is found in the tree. -/
theorem get?_append (site : d.Site base dir n) (ms : List String) :
    d.root.get? (dir ++ ms) = n.get? ms := by
  rw [Node.get?_append, site.found, Option.bind_some]

/-- In the tree below, too, no directory has two entries of one name. -/
theorem distinct (site : d.Site base dir n) : n.Distinct := d.tree.distinct.get site.found

/-- A change in the tree that keeps its directories. -/
theorem modify {d' : Disk} (site : d.Site base dir n) (current : d'.current = d.current)
    (changed : d'.root = d.root.modify f dir) (keeps : n.KeepsDirectories (f n)) :
    d'.Site base dir (f n) where
  nonempty := site.nonempty
  arrives := by
    rw [changed, origin, current]
    exact site.arrives.of_keeps (.modify site.found keeps)
  found := changed ▸ Node.get?_modify site.found

/-- Something can be put where there is no directory. -/
theorem put (site : d.Site base dir n) (found : n.get? ms = some (.directory es))
    (vacant : ∀ es', n.get? (ms ++ [x]) ≠ some (.directory es')) (t : Tree) :
    (d.put (dir ++ ms) x t).Site base dir (n.modify (Node.put x t.node) ms) := by
  refine site.modify rfl (Node.modify_append _ _ _ _) (.modify found (.put ?_))
  intro es' there
  apply vacant es'
  rw [Node.get?_append, found]
  exact there

/-- A file can be put where there is no directory. -/
theorem putFile (site : d.Site base dir n) (found : n.get? ms = some (.directory es))
    (vacant : ∀ es', n.get? (ms ++ [x]) ≠ some (.directory es')) (content : ByteArray) :
    (d.put (dir ++ ms) x (.file content)).Site base dir
      (n.modify (Node.put x (.file content)) ms) :=
  site.put found vacant (.file content)

/-- Something that is no directory can be taken away. -/
theorem drop (site : d.Site base dir n) (found : n.get? ms = some (.directory es))
    (vacant : ∀ es', n.get? (ms ++ [x]) ≠ some (.directory es')) :
    (d.drop (dir ++ ms) x).Site base dir (n.modify (Node.drop x) ms) := by
  refine site.modify rfl (Node.modify_append _ _ _ _) (.modify found (.drop ?_))
  intro es' there
  apply vacant es'
  rw [Node.get?_append, found]
  exact there

/-- A directory below is there. -/
theorem hasDirectory (site : d.Site base dir n) (found : n.get? ms = some (.directory es)) :
    d.hasDirectory (dir ++ ms) = true :=
  hasDirectory_iff.mpr ⟨es, (site.get?_append ms).trans found⟩

/-- A path to something below is walked from the directory. -/
theorem locate_eq_walk (site : d.Site base dir n) (below : Below base path more)
    (faultless : pathFault? path = none) (further : more ≠ []) :
    d.locate path = d.walk false dir more := by
  have origin : d.origin path = d.origin base := by
    rw [Disk.origin, below.rooted, Disk.origin]
  have slash : (path.toList.getLast? == some '/') = false := beq_eq_false_iff_ne.mpr below.last
  rw [locate, if_neg below.nonempty, faultless]
  simp only
  rw [slash, origin, below.names, site.arrives.walk further]

/-- A path leads to a name in a directory below, if there is this directory. -/
theorem locate (site : d.Site base dir n) (below : Below base path (ms ++ [x]))
    (admissible : Admissible path) (found : n.get? ms = some (.directory es)) :
    d.locate path = .ok ⟨dir ++ ms, some x, false⟩ := by
  obtain ⟨areNames, isName⟩ := List.forall_mem_append.mp below.areNames
  obtain ⟨short, notLong⟩ := List.forall_mem_append.mp (below.short admissible)
  have isName := isName x List.mem_cons_self
  have through : Descends d.root dir ms (dir ++ ms) :=
    .of_get? areNames short ((site.get?_append ms).trans found)
  have named : ms ++ [x] ≠ [] := List.append_ne_nil_of_right_ne_nil _ (List.cons_ne_nil _ _)
  rw [site.locate_eq_walk below admissible.faultless named, through.walk (List.cons_ne_nil _ _),
    walk, if_neg isName.notCurrent, if_neg isName.notParent,
    if_neg (notLong x List.mem_cons_self), if_pos rfl]

/-- What is at a place below the base directory is what its tree has there. -/
theorem at?_eq (site : d.Site base dir n) (ms : List String) (x : String) (slash : Bool) :
    d.at? ⟨dir ++ ms, some x, slash⟩ = n.get? (ms ++ [x]) := by
  rw [at?, Option.toList_some, List.append_assoc, site.get?_append]

/-- A path leads to what the tree has there. -/
theorem find_eq (site : d.Site base dir n) (below : Below base path (ms ++ [x]))
    (admissible : Admissible path) (found : n.get? ms = some (.directory es)) :
    d.find path = (n.get? (ms ++ [x])).elim (.error .notFound) .ok := by
  rw [find, site.locate below admissible found]
  simp only [site.at?_eq]
  cases n.get? (ms ++ [x]) with
  | none => rfl
  | some m => cases m <;> rfl

/-- A file is written below the base directory if there is a directory for it and none in its
place. -/
theorem write_eq (site : d.Site base dir n) (below : Below base path (ms ++ [x]))
    (admissible : Admissible path) (found : n.get? ms = some (.directory es))
    (vacant : ∀ es', n.get? (ms ++ [x]) ≠ some (.directory es')) (content : ByteArray) :
    d.write path content = .ok (d.put (dir ++ ms) x (.file content)) := by
  rw [write, site.locate below admissible found]
  simp only [List.append_assoc, site.get?_append, site.hasDirectory found]
  cases there : n.get? (ms ++ [x]) with
  | none => rfl
  | some m =>
      cases m with
      | file content => rfl
      | directory es' => exact absurd there (vacant es')

/-- A file can take the place of another one in the same directory. -/
theorem rename_eq {target y : String} {content : ByteArray} (site : d.Site base dir n)
    (below : Below base path (ms ++ [x])) (admissible : Admissible path)
    (below' : Below base target (ms ++ [y])) (admissible' : Admissible target)
    (found : n.get? ms = some (.directory es))
    (there : n.get? (ms ++ [x]) = some (.file content))
    (vacant : ∀ es', n.get? (ms ++ [y]) ≠ some (.directory es')) :
    d.rename path target =
      .ok ((d.drop (dir ++ ms) x).put (dir ++ ms) y (.file content)) := by
  have moved : d.tree.get? (dir ++ (ms ++ [x])) = some (.file content) :=
    Tree.get?_eq_some_iff.mpr ((site.get?_append _).trans there)
  rw [rename, site.locate below admissible found, site.locate below' admissible' found]
  simp only [List.append_assoc, moved, site.hasDirectory found, site.get?_append]
  rw [Bool.not_true, if_neg Bool.false_ne_true, Bool.false_and, if_neg Bool.false_ne_true]

/-- A walk through plain names, if it succeeds, leads to where they say. -/
theorem walk_eq_ok {slash : Bool} {here : List String} {place : Place}
    (areNames : ∀ name ∈ ms ++ [x], IsName name)
    (walked : d.walk slash here (ms ++ [x]) = .ok place) : place = ⟨here ++ ms, some x, slash⟩ := by
  induction ms generalizing here with
  | nil =>
      have isName := areNames x List.mem_cons_self
      rw [List.nil_append, walk, if_neg isName.notCurrent, if_neg isName.notParent] at walked
      split at walked
      · cases walked
      · cases walked
        rw [List.append_nil]
  | cons name ms ih =>
      obtain ⟨isName, areNames⟩ := List.forall_mem_cons.mp areNames
      rw [List.cons_append, walk, if_neg isName.notCurrent, if_neg isName.notParent,
        if_neg (List.append_ne_nil_of_right_ne_nil _ (List.cons_ne_nil _ _))] at walked
      split at walked
      · cases walked
      split at walked
      · cases walked
      · cases walked
      · rw [ih areNames walked, List.append_assoc]
        rfl

/-- Where a path to something below leads, if it leads anywhere. -/
theorem locate_ok {place : Place} (site : d.Site base dir n) (below : Below base path (ms ++ [x]))
    (located : d.locate path = .ok place) : place = ⟨dir ++ ms, some x, false⟩ := by
  have faultless : pathFault? path = none := by
    rw [Disk.locate, if_neg below.nonempty] at located
    split at located
    · cases located
    · rename_i faultless
      exact faultless
  rw [site.locate_eq_walk below faultless
    (List.append_ne_nil_of_right_ne_nil _ (List.cons_ne_nil _ _))] at located
  exact walk_eq_ok below.areNames located

/-- What is found by way of a path is in the tree. -/
theorem get?_of_find {m : Node} (site : d.Site base dir n) (below : Below base path (ms ++ [x]))
    (found : d.find path = .ok m) : n.get? (ms ++ [x]) = some m := by
  obtain ⟨place, located, there⟩ := find_ok found
  rw [← there, site.locate_ok below located, site.at?_eq]

/-- A directory that is missing is made on a walk, unless there is a file in its place. -/
theorem makeWalk_cons (site : d.Site base dir n) (isName : IsName x)
    (short : ¬x.utf8ByteSize > maxNameSize) (found : n.get? ms = some (.directory es))
    (vacant : ∀ content, n.get? (ms ++ [x]) ≠ some (.file content)) (missed : Bool)
    (rest : List String) :
    ∃ missed' d', makeWalk missed (dir ++ ms) (x :: rest) d =
        makeWalk missed' (dir ++ (ms ++ [x])) rest d' ∧
      d'.Site base dir (n.grow ms x) := by
  rw [makeWalk, if_neg isName.notCurrent, if_neg isName.notParent, if_neg short, List.append_assoc,
    site.get?_append, Node.grow]
  cases there : n.get? (ms ++ [x]) with
  | none =>
      refine ⟨true, _, if_pos (site.hasDirectory found), site.put found ?_ (.directory [])⟩
      intro es' directory
      cases there.symm.trans directory
  | some m =>
      cases m with
      | file content => exact absurd there (vacant content)
      | directory es' => exact ⟨missed, d, rfl, site⟩

end Site

end Disk

end BudgetedRun
