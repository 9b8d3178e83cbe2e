import BudgetedRun.Proofs.File.MadeDirectories

/-!
# Files beside one another

A path that ends in a name, whatever slashes and dots follow it or stand in between. Its parent goes
the same steps up to the name (`Disk.steps_parent`), and with another extension the path goes to
another name in the same place (`Disk.steps_withExtension`), unless it then ends in `..`. So a file
that is written there first is found at the path when it was moved (`Disk.Siblings.find_replaced`),
and as long as it was not, all that is read at the path is what was read before
(`Disk.Siblings.seen?_of_write`).
-/

namespace BudgetedRun

namespace Path

variable {path name parent : String} {p : List Char} {ps front tail : List (List Char)}

/-- A piece that leads nowhere: nothing between two slashes, or a dot. -/
def IsIdle (p : List Char) : Prop := p = [] ∨ p = ['.']

/-- A piece that is no component at all leads nowhere. -/
theorem isIdle_of_none {atFront : Bool} (none : component? atFront p = none) : IsIdle p := by
  rw [component?] at none
  split at none
  · exact .inl (by assumption)
  split at none
  · exact .inr (by assumption)
  split at none <;> cases none

/-- A piece that is neither a name nor `..` leads nowhere. -/
theorem isIdle_of_not_name {atFront : Bool} (notParent : p ≠ ['.', '.'])
    (other : ∀ name, component? atFront p ≠ some (.name name)) : IsIdle p := by
  by_cases empty : p = []
  · exact .inl empty
  by_cases current : p = ['.']
  · exact .inr current
  · refine absurd ?_ (other (String.ofList p))
    rw [Path.component?, if_neg empty, if_neg current, if_neg notParent]

/-- A piece that leads nowhere is no component, but at the front. -/
theorem IsIdle.component? (idle : IsIdle p) : Path.component? false p = none := by
  rcases idle with rfl | rfl <;> rfl

/-- The last piece that is a component, if there is one, with what is in front of it and what comes
after it. -/
theorem dropTail_cases (ps : List (List Char)) :
    dropTail ps = [] ∧ (∀ q ∈ ps, IsIdle q) ∨
      ∃ tail p front, ps = tail ++ p :: front ∧ dropTail ps = p :: front ∧
        (component? front.isEmpty p).isSome ∧ ∀ q ∈ tail, IsIdle q := by
  induction ps with
  | nil => exact .inl ⟨rfl, List.forall_mem_nil _⟩
  | cons p ps ih =>
      cases ps with
      | nil =>
          rw [dropTail]
          cases found : component? true p with
          | none => exact .inl ⟨rfl, List.forall_mem_singleton.mpr (isIdle_of_none found)⟩
          | some component =>
              exact .inr ⟨[], p, [], rfl, rfl, Option.isSome_of_eq_some found,
                List.forall_mem_nil _⟩
      | cons q qs =>
          rw [dropTail.eq_3 _ _ (List.cons_ne_nil q qs)]
          cases found : component? false p with
          | none =>
              have idle := isIdle_of_none found
              rcases ih with ⟨none, all⟩ | ⟨tail, r, front, split, kept, counts, all⟩
              · exact .inl ⟨none, List.forall_mem_cons.mpr ⟨idle, all⟩⟩
              · refine .inr ⟨p :: tail, r, front, ?_, kept, counts,
                  List.forall_mem_cons.mpr ⟨idle, all⟩⟩
                rw [split, List.cons_append]
          | some component =>
              exact .inr ⟨[], p, q :: qs, rfl, rfl, Option.isSome_of_eq_some found,
                List.forall_mem_nil _⟩

/-- The same for pieces in the order of the path. -/
theorem dropTail_reverse_cases (ps : List (List Char)) :
    dropTail ps.reverse = [] ∧ (∀ q ∈ ps, IsIdle q) ∨
      ∃ front p tail, ps = front ++ p :: tail ∧ dropTail ps.reverse = p :: front.reverse ∧
        (component? front.isEmpty p).isSome ∧ ∀ q ∈ tail, IsIdle q := by
  rcases dropTail_cases ps.reverse with ⟨none, idle⟩ | ⟨tail, p, front, split, kept, counts, idle⟩
  · exact .inl ⟨none, fun q member => idle q (List.mem_reverse.mpr member)⟩
  · refine .inr ⟨front.reverse, p, tail.reverse, ?_, ?_, ?_,
      fun q member => idle q (List.mem_reverse.mp member)⟩
    · rwa [List.reverse_eq_iff, List.reverse_append, List.reverse_cons, List.append_assoc,
        List.singleton_append] at split
    · rw [kept, List.reverse_reverse]
    · rwa [List.isEmpty_reverse]

/-- Pieces that lead nowhere have no components after the front. -/
theorem filterMap_idle (idle : ∀ q ∈ ps, IsIdle q) : ps.filterMap (component? false) = [] :=
  List.filterMap_eq_nil_iff.mpr fun q member => (idle q member).component?

/-- The last component is that of the last piece that is one. -/
theorem last?_of_pieces (split : pieces path.toList = front ++ p :: tail)
    (counts : (component? front.isEmpty p).isSome) (idle : ∀ q ∈ tail, IsIdle q) :
    last? path = component? front.isEmpty p := by
  obtain ⟨component, found⟩ := Option.isSome_iff_exists.mp counts
  rw [last?, found]
  cases front with
  | nil =>
      rw [List.isEmpty_nil] at found
      rw [components_eq split, found, filterMap_idle idle, List.append_nil]
      exact List.getLast?_concat
  | cons q front =>
      rw [List.isEmpty_cons] at found
      rw [List.cons_append] at split
      rw [components_eq split, List.filterMap_append, List.filterMap_cons, found,
        filterMap_idle idle, ← List.append_assoc]
      exact List.getLast?_concat

/-- The piece of a name is the name. -/
theorem eq_of_component? {atFront : Bool} (is : component? atFront p = some (.name name)) :
    p = name.toList := by
  rw [component?] at is
  split at is
  · cases is
  split at is
  · split at is <;> cases is
  split at is
  · cases is
  · cases is
    exact String.toList_ofList.symm

/-- The file name of a path is its last component, if that is a name. -/
theorem fileName?_eq_some_iff : fileName? path = some name ↔ last? path = some (.name name) := by
  unfold fileName?
  split
  · rename_i found
    rw [found, Option.some.injEq, Option.some.injEq, Component.name.injEq]
  · rename_i other
    refine ⟨fun same => ?_, fun same => absurd same (other name)⟩
    cases same

/-- Where all pieces are idle, there is no name. -/
theorem fileName?_of_idle (idle : ∀ q ∈ pieces path.toList, IsIdle q) : fileName? path = none := by
  refine Option.eq_none_iff_forall_not_mem.mpr fun name named => ?_
  have member := List.mem_of_getLast? (fileName?_eq_some_iff.mp named)
  cases split : pieces path.toList with
  | nil => exact absurd split (pieces_ne_nil _)
  | cons p ps =>
      rw [split] at idle
      obtain ⟨first, others⟩ := List.forall_mem_cons.mp idle
      rw [components_eq split, filterMap_idle others, List.append_nil] at member
      rcases first with rfl | rfl <;> split at member <;> simp [component?] at member

/-- A path that ends in a name, cut at that name. -/
theorem pieces_of_fileName? (named : fileName? path = some name) :
    ∃ front tail, pieces path.toList = front ++ name.toList :: tail ∧
      dropTail (pieces path.toList).reverse = name.toList :: front.reverse ∧
      (∀ q ∈ tail, IsIdle q) ∧ IsName name := by
  rcases dropTail_reverse_cases (pieces path.toList) with
    ⟨-, idle⟩ | ⟨front, p, tail, split, kept, counts, idle⟩
  · rw [fileName?_of_idle idle] at named
    cases named
  · have last := last?_of_pieces split counts idle
    rw [fileName?_eq_some_iff.mp named] at last
    obtain rfl := eq_of_component? last.symm
    have member : name.toList ∈ pieces path.toList :=
      split ▸ List.mem_append_right _ List.mem_cons_self
    exact ⟨front, tail, split, kept, idle, isName_of_component? (not_mem_pieces member) last.symm⟩

/-- A path without `..` that does not end in a name leads nowhere. -/
theorem isIdle_of_fileName? (plain : ['.', '.'] ∉ pieces path.toList)
    (unnamed : fileName? path = none) : ∀ q ∈ pieces path.toList, IsIdle q := by
  rcases dropTail_reverse_cases (pieces path.toList) with
    ⟨-, idle⟩ | ⟨front, p, tail, split, -, counts, idle⟩
  · exact idle
  · have last := last?_of_pieces split counts idle
    have member : p ∈ pieces path.toList := split ▸ List.mem_append_right _ List.mem_cons_self
    have here : IsIdle p := by
      have notParent : p ≠ ['.', '.'] := fun same => plain (same ▸ member)
      refine @isIdle_of_not_name p front.isEmpty notParent fun name is => ?_
      rw [fileName?_eq_some_iff.mpr (last.trans is)] at unnamed
      cases unnamed
    -- A dot that counts is at the front.
    cases front with
    | nil =>
        rw [split]
        exact List.forall_mem_cons.mpr ⟨here, idle⟩
    | cons q qs =>
        rw [List.isEmpty_cons, here.component?] at counts
        cases counts

/-! ### Texts from pieces -/

/-- The pieces of a text are those that it was put together from. -/
theorem pieces_glue (nonempty : ps ≠ []) (plain : ∀ p ∈ ps, '/' ∉ p) : pieces (glue ps) = ps := by
  induction ps with
  | nil => exact absurd rfl nonempty
  | cons p ps ih =>
      obtain ⟨first, others⟩ := List.forall_mem_cons.mp plain
      cases ps with
      | nil => exact pieces_of_not_mem first
      | cons q qs =>
          have rest := List.cons_ne_nil q qs
          rw [glue_cons rest, pieces_append, pieces_of_not_mem first, ih rest others]
          rfl

/-- A text after the last piece belongs to it. -/
theorem glue_append_last (ps : List (List Char)) (p cs : List Char) :
    glue (ps ++ [p]) ++ cs = glue (ps ++ [p ++ cs]) := by
  cases ps with
  | nil => rfl
  | cons q qs =>
      rw [glue_append (List.cons_ne_nil q qs), glue_append (List.cons_ne_nil q qs),
        List.append_assoc, List.cons_append]

/-- A path that starts with a piece that is not empty is not rooted. -/
theorem isRooted_glue_cons (nonempty : p ≠ []) (plain : '/' ∉ p) (ps : List (List Char)) :
    isRooted (String.ofList (glue (p :: ps))) = false := by
  cases p with
  | nil => exact absurd rfl nonempty
  | cons c cs =>
      have other : c ≠ '/' := fun same => plain (same ▸ List.mem_cons_self)
      rw [isRooted, String.toList_ofList]
      cases ps <;> simp [glue, other]

/-- Whether a path starts at the root shows in front of any piece that is not empty. -/
theorem isRooted_glue_append {q : List Char} (nonempty : p ≠ []) (plain : '/' ∉ p)
    (nonempty' : q ≠ []) (plain' : '/' ∉ q) (front ps qs : List (List Char)) :
    isRooted (String.ofList (glue (front ++ p :: ps))) =
      isRooted (String.ofList (glue (front ++ q :: qs))) := by
  cases front with
  | nil =>
      rw [List.nil_append, List.nil_append, isRooted_glue_cons nonempty plain,
        isRooted_glue_cons nonempty' plain']
  | cons r rs =>
      rw [isRooted, isRooted, String.toList_ofList, String.toList_ofList,
        glue_append_cons (List.cons_ne_nil r rs), glue_append_cons (List.cons_ne_nil r rs)]
      cases glue (r :: rs) <;> rfl

/-- A path is its pieces with slashes between them. -/
theorem ofList_glue_pieces (path : String) : String.ofList (glue (pieces path.toList)) = path := by
  rw [glue_pieces, String.ofList_toList]

/-! ### Extensions -/

/-- The stem of a file name is what the name starts with. -/
theorem stem_starts (cs : List Char) : stem cs <+: cs := by
  have suffix := List.dropWhile_suffix (l := cs.reverse) (· ≠ '.')
  rw [stem]
  generalize cs.reverse.dropWhile (· ≠ '.') = back at suffix
  cases back with
  | nil => exact List.prefix_refl _
  | cons c before =>
      cases before with
      | nil => exact List.prefix_refl _
      | cons d more =>
          have shorter := (List.suffix_cons c (d :: more)).trans suffix
          rwa [← List.reverse_prefix, List.reverse_reverse] at shorter

/-- Only the empty file name has an empty stem. -/
theorem stem_ne_nil {cs : List Char} (nonempty : cs ≠ []) : stem cs ≠ [] := by
  rw [stem]
  cases cs.reverse.dropWhile (· ≠ '.') with
  | nil => exact nonempty
  | cons c before =>
      cases before with
      | nil => exact nonempty
      | cons d more => exact mt List.reverse_eq_nil_iff.mp (List.cons_ne_nil d more)

/-- The stem goes up to the last dot. -/
theorem stem_append {cs ds : List Char} (nonempty : cs ≠ []) (plain : '.' ∉ ds) :
    stem (cs ++ '.' :: ds) = cs := by
  have found : (cs ++ '.' :: ds).reverse.dropWhile (· ≠ '.') = '.' :: cs.reverse := by
    have others : ∀ c ∈ ds.reverse, decide (c ≠ '.') = true := by
      intro c member
      refine decide_eq_true ?_
      rintro rfl
      exact plain (List.mem_reverse.mp member)
    rw [List.reverse_append, List.reverse_cons, List.append_assoc,
      List.dropWhile_append_of_pos others]
    rfl
  rw [stem, found]
  cases back : cs.reverse with
  | nil => exact absurd (List.reverse_eq_nil_iff.mp back) nonempty
  | cons d more => exact List.reverse_eq_iff.mpr back.symm

/-- A name with `toml.tmp` for its extension is another one. -/
theorem ne_stem_append (name : List Char) :
    name ≠ stem name ++ '.' :: "toml.tmp".toList := by
  intro same
  have longer := @stem_append (stem name ++ ".toml".toList) "tmp".toList (by simp) (by decide)
  rw [List.append_assoc] at longer
  have again : stem name = stem name ++ ".toml".toList := (congrArg stem same).trans longer
  exact absurd (List.append_right_eq_self.mp again.symm) (by decide)

end Path

namespace Node

variable {n : Node} {x y : String} {xs : List String} {es : List (String × Node)}
  {content : ByteArray}

/-- A file that is moved to another name in its directory is there, and all directories stay. -/
theorem move (found : n.get? xs = some (.directory es))
    (there : n.get? (xs ++ [y]) = some (.file content)) (another : x ≠ y)
    (vacant : ∀ es', n.get? (xs ++ [x]) ≠ some (.directory es')) :
    n.KeepsDirectories ((n.modify (Node.drop y) xs).modify (put x (.file content)) xs) ∧
      ((n.modify (Node.drop y) xs).modify (put x (.file content)) xs).get? (xs ++ [x]) =
        some (.file content) := by
  have below (z : String) : (Node.directory es).get? [z] = n.get? (xs ++ [z]) := by
    rw [get?_append, found]
    rfl
  have dropped : (n.modify (Node.drop y) xs).get? xs = some ((Node.directory es).drop y) :=
    get?_modify found
  have vacant' (es' : List (String × Node)) :
      ((Node.directory es).drop y).get? [x] ≠ some (.directory es') := by
    rw [get?_drop_of_ne another, below]
    exact vacant es'
  refine ⟨(KeepsDirectories.modify found (.drop fun es' other => ?_)).trans
    (.modify dropped (.put vacant')), (get?_modify_put dropped _ x).trans (if_pos rfl)⟩
  rw [below, there] at other
  cases other

end Node

namespace Disk

open BudgetedRun.Path

variable {path name parent : String} {p : List Char} {ps front tail : List (List Char)}

/-- The names through which some pieces lead. -/
def stepsOf (ps : List (List Char)) : List String :=
  ((ps.filter (· ≠ [])).map String.ofList).filter (· ≠ ".")

/-- The names through which a path leads. -/
def steps (path : String) : List String := stepsOf (pieces path.toList)

/-- Pieces lead through their names one after another. -/
theorem stepsOf_append (ps qs : List (List Char)) :
    stepsOf (ps ++ qs) = stepsOf ps ++ stepsOf qs := by
  rw [stepsOf, List.filter_append, List.map_append, List.filter_append]
  rfl

/-- Pieces that lead nowhere lead through no names. -/
theorem stepsOf_idle (idle : ∀ q ∈ ps, IsIdle q) : stepsOf ps = [] := by
  induction ps with
  | nil => rfl
  | cons p ps ih =>
      obtain ⟨first, others⟩ := List.forall_mem_cons.mp idle
      rw [← List.singleton_append, stepsOf_append, ih others]
      rcases first with rfl | rfl <;> rfl

/-- The piece of a name leads through that name. -/
theorem stepsOf_name (isName : IsName name) : stepsOf [name.toList] = [name] := by
  have nonempty : [name.toList].filter (· ≠ []) = [name.toList] :=
    List.filter_cons_of_pos (decide_eq_true isName.toList_ne_nil)
  rw [stepsOf, nonempty, List.map_singleton, String.ofList_toList]
  exact List.filter_cons_of_pos (decide_eq_true isName.notCurrent)

/-- A piece that is not empty is among the names that the operating system looks up. -/
theorem mem_names {piece : List Char} (member : piece ∈ pieces path.toList)
    (nonempty : piece ≠ []) : String.ofList piece ∈ names path :=
  List.mem_map_of_mem (List.mem_filter.mpr ⟨member, decide_eq_true nonempty⟩)

/-- A path without `..` has no such piece. -/
theorem not_mem_pieces_of_plain (plain : ".." ∉ names path) : ['.', '.'] ∉ pieces path.toList :=
  fun member => plain (mem_names member (List.cons_ne_nil _ _))

/-- A path without a piece `..` has no such name. -/
theorem not_mem_names (plain : ['.', '.'] ∉ pieces path.toList) : ".." ∉ names path := by
  intro member
  obtain ⟨piece, inside, same⟩ := List.mem_map.mp member
  obtain rfl : piece = ['.', '.'] := String.ofList_inj.mp same
  exact plain (List.mem_filter.mp inside).1

/-- A path without the component `..` has no such name. -/
theorem plain_of_components (plain : Component.parent ∉ components path) : ".." ∉ names path := by
  refine not_mem_names fun member => plain ?_
  cases split : pieces path.toList with
  | nil => exact absurd split (pieces_ne_nil _)
  | cons p ps =>
      rw [components_eq split]
      rcases List.mem_cons.mp (split ▸ member) with rfl | later
      · exact List.mem_append_left _ (List.mem_append_right _ List.mem_cons_self)
      · exact List.mem_append_right _ (List.mem_filterMap.mpr ⟨_, later, rfl⟩)

/-- The parent of a path that ends in a name leads to where the name is. -/
theorem steps_parent (named : fileName? path = some name) (above : parent? path = some parent) :
    isRooted parent = isRooted path ∧ steps path = steps parent ++ [name] ∧
      (".." ∉ names path → ".." ∉ names parent) := by
  obtain ⟨front, tail, split, cut, idle, isName⟩ := pieces_of_fileName? named
  have taken : steps path = stepsOf front ++ [name] := by
    rw [steps, split, ← List.singleton_append, ← List.append_assoc, stepsOf_append, stepsOf_append,
      stepsOf_name isName, stepsOf_idle idle, List.append_nil]
  rw [parent?, cut] at above
  simp only at above
  rcases dropTail_reverse_cases front with
    ⟨none, idle'⟩ | ⟨front', q, tail', split', kept, counts, idle'⟩
  · rw [none] at above
    obtain rfl := Option.some.inj above
    rw [taken, stepsOf_idle idle']
    cases rooted : isRooted path with
    | true => exact ⟨rfl, rfl, fun _ => by decide⟩
    | false => exact ⟨rfl, rfl, fun _ => by decide⟩
  · rw [kept] at above
    obtain rfl := Option.some.inj above
    have whole : pieces path.toList = front' ++ q :: (tail' ++ name.toList :: tail) := by
      rw [split, split', List.append_assoc, List.cons_append]
    have within : ∀ r ∈ front' ++ [q], r ∈ pieces path.toList := by
      intro r member
      rw [whole, List.append_cons]
      exact List.mem_append_left _ member
    have nonempty : q ≠ [] := by
      rintro rfl
      cases counts
    have plain : '/' ∉ q :=
      not_mem_pieces (within q (List.mem_append_right _ List.mem_cons_self))
    rw [List.reverse_cons, List.reverse_reverse]
    have again : pieces (String.ofList (glue (front' ++ [q]))).toList = front' ++ [q] := by
      rw [String.toList_ofList]
      exact pieces_glue (List.append_ne_nil_of_right_ne_nil _ (List.cons_ne_nil _ _))
        fun r member => not_mem_pieces (within r member)
    refine ⟨?_, ?_, fun plain => not_mem_names fun member => ?_⟩
    · have start := isRooted_glue_append nonempty plain nonempty plain front' []
        (tail' ++ name.toList :: tail)
      rwa [← whole, ofList_glue_pieces] at start
    · have same : stepsOf front = stepsOf (front' ++ [q]) := by
        rw [split', List.append_cons, stepsOf_append, stepsOf_idle idle', List.append_nil]
      rw [taken, steps, again, same]
    · exact not_mem_pieces_of_plain plain (within _ (again ▸ member))

/-- A stem with an extension is a name. -/
theorem isName_extended {extension : List Char} (isName : IsName name) (nonempty : extension ≠ [])
    (plain : '/' ∉ extension) :
    IsName (String.ofList (stem name.toList ++ '.' :: extension)) := by
  have some := List.length_pos_iff.mpr (stem_ne_nil isName.toList_ne_nil)
  have more := List.length_pos_iff.mpr nonempty
  have long : 3 ≤ (stem name.toList ++ '.' :: extension).length := by
    rw [List.length_append, List.length_cons]
    omega
  have other (short : String) (length : short.toList.length < 3) :
      String.ofList (stem name.toList ++ '.' :: extension) ≠ short := by
    rintro rfl
    rw [String.toList_ofList] at length
    omega
  refine ⟨other _ (by decide), other _ (by decide), other _ (by decide), ?_⟩
  rw [String.toList_ofList, List.mem_append, List.mem_cons]
  rintro (inStem | dot | inExtension)
  · exact isName.plain ((stem_starts _).subset inStem)
  · cases dot
  · exact plain inExtension

/-- With another extension, a path that ends in a name leads to another name in the same place. It
leads upwards where nothing but a dot is left in front of the extension. -/
theorem steps_withExtension {extension : String} (named : fileName? path = some name)
    (nonempty : extension.toList ≠ []) (plain : '/' ∉ extension.toList) :
    (∃ ns, names (withExtension path extension) = ns ++ [".."]) ∨
      isRooted (withExtension path extension) = isRooted path ∧
        (∃ ns, steps path = ns ++ [name] ∧
          steps (withExtension path extension) =
            ns ++ [String.ofList (stem name.toList ++ '.' :: extension.toList)]) ∧
        (".." ∉ names path → ".." ∉ names (withExtension path extension)) := by
  obtain ⟨front, tail, split, cut, idle, isName⟩ := pieces_of_fileName? named
  have within : ∀ q ∈ front, q ∈ pieces path.toList :=
    fun q member => split ▸ List.mem_append_left _ member
  -- The pieces of the path with another last one.
  have pieces_concat {p : List Char} (plain : '/' ∉ p) :
      pieces (glue (front ++ [p])) = front ++ [p] := by
    refine pieces_glue (List.append_ne_nil_of_right_ne_nil _ (List.cons_ne_nil _ _)) ?_
    exact List.forall_mem_append.mpr
      ⟨fun q member => not_mem_pieces (within q member), List.forall_mem_singleton.mpr plain⟩
  simp only [withExtension, named, cut]
  rw [List.reverse_cons, List.reverse_cons, List.reverse_reverse, glue_append_last]
  split
  · refine .inl ⟨(front.filter (· ≠ [])).map String.ofList, ?_⟩
    rw [names, String.toList_ofList, pieces_concat (by decide), List.filter_append, List.map_append]
    rfl
  · have isName' := isName_extended isName nonempty plain
    have last := isName'.plain
    have some := isName'.toList_ne_nil
    rw [String.toList_ofList] at last some
    have again := pieces_concat last
    rw [← String.toList_ofList (l := glue _)] at again
    refine .inr ⟨?_, ⟨stepsOf front, ?_, ?_⟩, fun plain => not_mem_names fun member => ?_⟩
    · have start := isRooted_glue_append some last isName.toList_ne_nil isName.plain front [] tail
      rwa [← split, ofList_glue_pieces] at start
    · rw [steps, split, List.append_cons, stepsOf_append, stepsOf_append, stepsOf_name isName,
        stepsOf_idle idle, List.append_nil]
    · have named' := stepsOf_name isName'
      rw [String.toList_ofList] at named'
      rw [steps, again, stepsOf_append, named']
    · rw [again] at member
      rcases List.mem_append.mp member with inFront | inLast
      · exact not_mem_pieces_of_plain plain (within _ inFront)
      · have same : String.ofList (stem name.toList ++ '.' :: extension.toList) = ".." :=
          congrArg String.ofList (List.mem_singleton.mp inLast).symm
        exact isName'.notParent same

section files

variable {d d' d'' : Disk} {other : String} {content : ByteArray}

/-- A path leads to where it starts, and from there through its names. -/
theorem resolve_eq_steps (d : Disk) (path : String) :
    d.resolve path = d.origin path ++ steps path := rfl

/-- A path, the directory that it is in, and another path to a different name in that directory. -/
structure Siblings (parent path other : String) : Prop where
  plain : ".." ∉ names path
  plainOther : ".." ∉ names other
  apart : ∃ x y, x ≠ y ∧ ∀ d : Disk,
    d.resolve path = d.resolve parent ++ [x] ∧ d.resolve other = d.resolve parent ++ [y]

/-- What is above a path without `..`. -/
theorem resolve_parent (plain : ".." ∉ names path) (above : parent? path = some parent) :
    ".." ∉ names parent ∧
      ((∃ x, ∀ d : Disk, d.resolve path = d.resolve parent ++ [x]) ∨ names parent = []) := by
  cases named : fileName? path with
  | some name =>
      obtain ⟨rooted, taken, kept⟩ := steps_parent named above
      refine ⟨kept plain, .inl ⟨name, fun d => ?_⟩⟩
      rw [resolve_eq_steps, resolve_eq_steps, origin, origin, rooted, taken, List.append_assoc]
  | none =>
      have idle := isIdle_of_fileName? (not_mem_pieces_of_plain plain) named
      have nowhere : names parent = [] := by
        rw [parent?] at above
        rcases dropTail_reverse_cases (pieces path.toList) with
          ⟨none, -⟩ | ⟨front, p, tail, split, kept, counts, -⟩
        · rw [none] at above
          cases above
        · rw [kept] at above
          have member : p ∈ pieces path.toList :=
            split ▸ List.mem_append_right _ List.mem_cons_self
          cases front with
          | nil =>
              obtain rfl := Option.some.inj above
              split <;> decide
          | cons q qs =>
              rw [List.isEmpty_cons, (idle p member).component?] at counts
              cases counts
      exact ⟨nowhere ▸ List.not_mem_nil, .inr nowhere⟩

/-- Directories that are made above a path are not noticed at the path itself. -/
theorem seen?_makeDirectories_parent {answer : Except FileError Unit} (plain : ".." ∉ names path)
    (above : parent? path = some parent) (makes : d.makeDirectories parent = (answer, d')) :
    d'.current = d.current ∧ (∀ place, SameOrMade d d' place) ∧
      d'.root.seen? (d.resolve path) = d.root.seen? (d.resolve path) := by
  obtain ⟨plainParent, deeper⟩ := resolve_parent plain above
  obtain ⟨current, made⟩ := Spares.seen?_makeDirectories plainParent d
  rw [makes] at current made
  refine ⟨current, fun place => (made place).imp_right fun new => ⟨new.1, new.2.1⟩, ?_⟩
  refine (made (d.resolve path)).resolve_right ?_
  rintro ⟨-, -, above, proper, within⟩
  rcases deeper with ⟨x, leads⟩ | nowhere
  · have shorter := within.length_le
    rw [leads d, List.length_append, List.length_singleton] at shorter
    omega
  · have ends : d.resolve parent = d.origin parent := by
      rw [resolve, nowhere]
      exact List.append_nil _
    rw [ends] at within
    exact proper (within.eq_of_length_le above.length_le)

/-- The name of a place that is found is the last name of the path. -/
theorem names_of_locate {dir : List String} {x : String} {slash : Bool}
    (located : d.locate path = .ok ⟨dir, some x, slash⟩) :
    ∃ ms, names path = ms ++ [x] ∧ x ≠ "." ∧ x ≠ ".." := by
  rw [locate] at located
  split at located
  · cases located
  split at located
  · cases located
  exact names_of_walk located

/-- Where all pieces lead nowhere, each name is a dot. -/
theorem eq_current_of_idle (idle : ∀ q ∈ pieces path.toList, IsIdle q)
    (member : name ∈ names path) : name = "." := by
  obtain ⟨q, inside, rfl⟩ := List.mem_map.mp member
  obtain ⟨inside, nonempty⟩ := List.mem_filter.mp inside
  rcases idle q inside with rfl | rfl
  · cases nonempty
  · rfl

/-- Where a file can be written with another extension first, it is beside the path. -/
theorem siblings_of_locate {dir : List String} {x : String} {slash : Bool}
    (plain : ".." ∉ names path) (above : parent? path = some parent)
    (located : d.locate (withExtension path "toml.tmp") = .ok ⟨dir, some x, slash⟩) :
    Siblings parent path (withExtension path "toml.tmp") := by
  obtain ⟨ms, ends, notCurrent, notParent⟩ := names_of_locate located
  cases named : fileName? path with
  | none =>
      have same : withExtension path "toml.tmp" = path := by
        rw [withExtension, named]
      have idle := isIdle_of_fileName? (not_mem_pieces_of_plain plain) named
      rw [same] at ends
      exact absurd (eq_current_of_idle idle (ends ▸ List.mem_append_right _ List.mem_cons_self))
        notCurrent
  | some name =>
      obtain ⟨rooted, taken, -⟩ := steps_parent named above
      rcases steps_withExtension named (by decide : "toml.tmp".toList ≠ []) (by decide) with
        ⟨ns, upward⟩ | ⟨rooted', ⟨ns, cut, other⟩, kept⟩
      · rw [ends] at upward
        exact absurd (List.append_inj_right' upward rfl) (by simpa using notParent)
      · rw [taken] at cut
        obtain rfl := List.append_inj_left' cut rfl
        have another : name ≠ String.ofList (stem name.toList ++ '.' :: "toml.tmp".toList) :=
          fun same => ne_stem_append name.toList
            ((congrArg String.toList same).trans String.toList_ofList)
        refine ⟨plain, kept plain, name, _, another, fun d => ⟨?_, ?_⟩⟩
        · rw [resolve_eq_steps, resolve_eq_steps, origin, origin, rooted, taken, List.append_assoc]
        · rw [resolve_eq_steps, resolve_eq_steps, origin, origin, rooted, rooted', other,
            List.append_assoc]

namespace Siblings

/-- **A file that is written beside a path and then moved there is found there.** -/
theorem find_replaced (siblings : Siblings parent path other)
    (written : d.write other content = .ok d') (renamed : d'.rename other path = .ok d'') :
    d''.find path = .ok (.file content) := by
  obtain ⟨x, y, another, leads⟩ := siblings.apart
  obtain ⟨dir, name, located, ⟨es, found⟩, -, rfl⟩ := write_ok written
  obtain ⟨dir₂, name₂, _, dir₃, name₃, slash, t, located₂, located₃, moved, vacant', fits, rfl⟩ :=
    rename_ok renamed
  -- All three places are in the directory that the parent leads to.
  have place := (resolve_of_locate siblings.plainOther located).trans (leads d).2
  have place₂ := (resolve_of_locate siblings.plainOther located₂).trans (leads _).2
  have place₃ := (resolve_of_locate siblings.plain located₃).trans (leads _).1
  change dir₂ ++ [name₂] = d.resolve parent ++ [y] at place₂
  change dir₃ ++ [name₃] = d.resolve parent ++ [x] at place₃
  obtain ⟨rfl, own⟩ := List.append_inj' place rfl
  obtain ⟨rfl, own₂⟩ := List.append_inj' place₂ rfl
  obtain ⟨rfl, own₃⟩ := List.append_inj' place₃ rfl
  cases own
  cases own₂
  cases own₃
  obtain rfl : t = .file content := Tree.ext (Node.eq_of_get?_modify_put moved)
  have open' : slash = false := Bool.eq_false_iff.mpr fun closed => by cases fits closed
  generalize d.resolve parent = dir at *
  let d₁ := d.put dir y (.file content)
  let d₂ := (d₁.drop dir y).put dir x (.file content)
  have found₁ : d₁.root.get? dir = some (.directory (Entries.replace y (.file content) es)) :=
    Node.get?_modify found
  obtain ⟨keeps, there⟩ := Node.move found₁ moved another vacant'
  have located' : d₂.locate path = .ok ⟨dir, some x, false⟩ :=
    locate_of_keeps (d := d₁) rfl keeps (open' ▸ located₃)
  have arrived : d₂.at? ⟨dir, some x, false⟩ = some (.file content) := there
  change d₂.find path = _
  rw [find, located']
  simp only [arrived]
  rfl

/-- While a file is only written beside a path, the same is noticed on the way to the path. -/
theorem seen?_of_write (siblings : Siblings parent path other)
    (written : d.write other content = .ok d') {place : List String}
    (within : place <+: d.resolve path) : d'.root.seen? place = d.root.seen? place := by
  obtain ⟨x, y, another, leads⟩ := siblings.apart
  obtain ⟨dir, name, located, -, -, rfl⟩ := write_ok written
  have own := (resolve_of_locate siblings.plainOther located).trans (leads d).2
  refine Node.seen?_modify (fun _ => Node.content?_put)
    (fun _ _ ys another => Node.get?_put_of_ne another ys) fun inside => ?_
  have toward : d.resolve parent ++ [y] <+: d.resolve parent ++ [x] :=
    (leads d).1 ▸ (own ▸ inside).trans within
  have same := List.cons_prefix_cons.mp ((List.prefix_append_right_inj _).mp toward)
  exact another same.1.symm

end Siblings

end files

end Disk

end BudgetedRun
