import BudgetedRun.File.Tree

/-!
# Paths that end in a name

What joining a name to a path does to it: the pieces, the names that are walked through, and where
it starts. From a path that ends in two names its parent, and the same path with another extension,
differ in the last one only.
-/

namespace BudgetedRun

namespace Path

variable {cs ds : List Char} {base name : String}

/-- Each text has a piece. -/
theorem pieces_ne_nil (cs : List Char) : pieces cs ≠ [] := by
  cases cs with
  | nil => exact List.cons_ne_nil _ _
  | cons c cs =>
      rw [pieces]
      split
      · exact List.cons_ne_nil _ _
      · split <;> exact List.cons_ne_nil _ _

/-- A slash parts the pieces. -/
theorem pieces_append (cs ds : List Char) :
    pieces (cs ++ '/' :: ds) = pieces cs ++ pieces ds := by
  induction cs with
  | nil => rfl
  | cons c cs ih =>
      rw [List.cons_append, pieces, pieces, ih]
      by_cases slash : c = '/'
      · rw [if_pos slash, if_pos slash]
        rfl
      · rw [if_neg slash, if_neg slash]
        cases front : pieces cs with
        | nil => exact absurd front (pieces_ne_nil cs)
        | cons p ps => rfl

/-- A text without slashes is its only piece. -/
theorem pieces_of_not_mem (plain : '/' ∉ cs) : pieces cs = [cs] := by
  induction cs with
  | nil => rfl
  | cons c cs ih =>
      rw [List.mem_cons, not_or] at plain
      rw [pieces, if_neg (Ne.symm plain.1), ih plain.2]

/-- A slash stands after the first of several pieces. -/
theorem glue_cons {ps : List (List Char)} (nonempty : ps ≠ []) (p : List Char) :
    glue (p :: ps) = p ++ '/' :: glue ps := by
  cases ps with
  | nil => exact absurd rfl nonempty
  | cons q qs => rfl

/-- A slash stands between any pieces and those after them. -/
theorem glue_append_cons {ps : List (List Char)} (nonempty : ps ≠ []) (p : List Char)
    (qs : List (List Char)) : glue (ps ++ p :: qs) = glue ps ++ '/' :: glue (p :: qs) := by
  induction ps with
  | nil => exact absurd rfl nonempty
  | cons q ps ih =>
      cases ps with
      | nil => rfl
      | cons r rs =>
          have some_rest := List.cons_ne_nil r rs
          rw [List.cons_append, glue_cons (List.append_ne_nil_of_left_ne_nil some_rest _),
            ih some_rest, glue_cons some_rest, List.append_assoc, List.cons_append]

/-- A slash stands before the last piece. -/
theorem glue_append {ps : List (List Char)} (nonempty : ps ≠ []) (p : List Char) :
    glue (ps ++ [p]) = glue ps ++ '/' :: p := glue_append_cons nonempty p []

/-- The pieces with slashes between them are the text that they are from. -/
theorem glue_pieces (cs : List Char) : glue (pieces cs) = cs := by
  induction cs with
  | nil => rfl
  | cons c cs ih =>
      rw [pieces]
      cases front : pieces cs with
      | nil => exact absurd front (pieces_ne_nil cs)
      | cons p ps =>
          rw [front] at ih
          split
          · rename_i slash
            rw [glue_cons (List.cons_ne_nil p ps), ih, slash]
            rfl
          · cases ps with
            | nil => exact congrArg (c :: ·) ih
            | cons q qs => exact congrArg (c :: ·) ih

/-- A text that can be the name of a file: it is not empty, has no slash in it, and does not stand
for a directory or its parent. -/
structure IsName (name : String) : Prop where
  nonempty : name ≠ ""
  notCurrent : name ≠ "."
  notParent : name ≠ ".."
  plain : '/' ∉ name.toList

namespace IsName

/-- A name is not empty. -/
theorem toList_ne_nil (isName : IsName name) : name.toList ≠ [] :=
  fun empty => isName.nonempty (String.toList_eq_nil_iff.mp empty)

theorem isRooted_eq_false (isName : IsName name) : isRooted name = false :=
  beq_eq_false_iff_ne.mpr fun first => isName.plain (List.mem_of_head? first)

theorem getLast?_ne (isName : IsName name) : name.toList.getLast? ≠ some '/' :=
  fun last => isName.plain (List.mem_of_getLast? last)

/-- A name is the component of that name. -/
theorem component? (isName : IsName name) (atFront : Bool) :
    Path.component? atFront name.toList = some (.name name) := by
  have current : name.toList ≠ ['.'] := fun same =>
    isName.notCurrent (String.toList_inj.mp same)
  have parent : name.toList ≠ ['.', '.'] := fun same =>
    isName.notParent (String.toList_inj.mp same)
  rw [Path.component?, if_neg isName.toList_ne_nil, if_neg current, if_neg parent,
    String.ofList_toList]

end IsName

/-- What a name is joined to, less a slash at its end. -/
theorem exists_join (isName : IsName name) (nonempty : base ≠ "") :
    ∃ front, (join base name).toList = front ++ '/' :: name.toList ∧
      (base.toList = front ∨ base.toList = front ++ ['/']) := by
  rw [join, isName.isRooted_eq_false, if_neg Bool.false_ne_true, if_neg nonempty]
  split
  · rename_i slash
    obtain ⟨front, split⟩ := List.getLast?_eq_some_iff.mp slash
    refine ⟨front, ?_, .inr split⟩
    rw [String.toList_append, split, List.append_assoc]
    rfl
  · refine ⟨base.toList, ?_, .inl rfl⟩
    rw [String.toList_append, String.toList_append, List.append_assoc]
    rfl

/-- A path with a name at its end is not empty. -/
theorem join_ne_empty (isName : IsName name) (nonempty : base ≠ "") : join base name ≠ "" := by
  obtain ⟨front, joined, -⟩ := exists_join isName nonempty
  intro empty
  rw [empty] at joined
  exact absurd joined.symm (List.append_ne_nil_of_right_ne_nil _ (List.cons_ne_nil _ _))

/-- A path ends as the name that was joined to it ends. -/
theorem getLast?_join (isName : IsName name) (nonempty : base ≠ "") :
    (join base name).toList.getLast? = name.toList.getLast? := by
  obtain ⟨front, joined, -⟩ := exists_join isName nonempty
  rw [joined, List.append_cons, List.getLast?_append]
  cases last : name.toList.getLast? with
  | none => exact absurd (List.getLast?_eq_none_iff.mp last) isName.toList_ne_nil
  | some c => rfl

/-- A path with a name at its end is rooted exactly if it was so before. -/
theorem isRooted_join (isName : IsName name) (nonempty : base ≠ "") :
    isRooted (join base name) = isRooted base := by
  obtain ⟨front, joined, base⟩ := exists_join isName nonempty
  rw [isRooted, isRooted, joined]
  cases front with
  | nil =>
      rcases base with empty | slash
      · exact absurd (String.toList_eq_nil_iff.mp empty) nonempty
      · rw [slash]
        rfl
  | cons c cs =>
      rcases base with same | slash
      · rw [same]
        rfl
      · rw [slash]
        rfl

/-- A path that ends in a name has no slash at its end to be left out. -/
theorem toList_join_join {top : String} (isName : IsName name) (isName' : IsName base)
    (nonempty : top ≠ "") :
    (join (join top base) name).toList = (join top base).toList ++ '/' :: name.toList := by
  obtain ⟨front, joined, same | slash⟩ := exists_join isName (join_ne_empty isName' nonempty)
  · rw [joined, same]
  · have last := getLast?_join isName' nonempty
    rw [slash, List.getLast?_concat] at last
    exact absurd last.symm isName'.getLast?_ne

/-- The name at the end of a path is its last piece. -/
theorem pieces_join (isName : IsName name) (nonempty : base ≠ "") :
    ∃ ps, pieces (join base name).toList = ps ++ [name.toList] ∧
      (ps.filter (· ≠ [])) = (pieces base.toList).filter (· ≠ []) := by
  obtain ⟨front, joined, base⟩ := exists_join isName nonempty
  refine ⟨pieces front, ?_, ?_⟩
  · rw [joined, pieces_append, pieces_of_not_mem isName.plain]
  · rcases base with same | slash
    · rw [same]
    · rw [slash, pieces_append, List.filter_append]
      exact (List.append_nil _).symm

/-- A path whose last piece is a name ends in that name. -/
theorem last?_eq_name {path : String} {ps : List (List Char)} (isName : IsName name)
    (split : pieces path.toList = ps ++ [name.toList]) : last? path = some (.name name) := by
  have last : [name.toList].filterMap (Path.component? false) = [.name name] := by
    rw [List.filterMap_cons, isName.component?]
    rfl
  rw [last?, components, split]
  cases ps with
  | nil =>
      simp only [List.nil_append, isName.component?, Option.toList_some, List.filterMap_nil,
        List.append_nil]
      exact List.getLast?_concat
  | cons p ps =>
      simp only [List.cons_append]
      rw [List.filterMap_append, last, ← List.append_assoc]
      exact List.getLast?_concat

section components

variable {path : String} {p : List Char} {ps : List (List Char)} {atFront : Bool}

/-- No slash is in a piece. -/
theorem not_mem_pieces (member : p ∈ pieces cs) : '/' ∉ p := by
  induction cs generalizing p with
  | nil =>
      cases List.mem_singleton.mp member
      exact List.not_mem_nil
  | cons c cs ih =>
      rw [pieces] at member
      split at member
      · rcases List.mem_cons.mp member with rfl | later
        · exact List.not_mem_nil
        · exact ih later
      · rename_i another
        split at member
        · rename_i none
          exact absurd none (pieces_ne_nil cs)
        · rename_i q qs split
          rcases List.mem_cons.mp member with rfl | later
          · rw [List.mem_cons, not_or]
            exact ⟨Ne.symm another, ih (split ▸ List.mem_cons_self)⟩
          · exact ih (split ▸ List.mem_cons_of_mem q later)

/-- Only names that a file can have are components. -/
theorem isName_of_component? (plain : '/' ∉ p)
    (component : component? atFront p = some (.name name)) : IsName name := by
  rw [component?] at component
  split at component
  · cases component
  rename_i nonempty
  split at component
  · split at component <;> cases component
  rename_i notCurrent
  split at component
  · cases component
  rename_i notParent
  cases component
  rw [← String.toList_ofList (l := p)] at nonempty notCurrent notParent plain
  exact ⟨fun empty => nonempty (String.toList_eq_nil_iff.mpr empty),
    fun same => notCurrent (congrArg String.toList same),
    fun same => notParent (congrArg String.toList same), plain⟩

/-- The components of a path, piece by piece. -/
theorem components_eq (split : pieces path.toList = p :: ps) :
    components path = (if isRooted path then [.root] else []) ++ (component? true p).toList ++
      ps.filterMap (component? false) := by
  rw [components, split]

/-- The names among the components of a path can stand in a path. -/
theorem isName_of_mem_components (member : .name name ∈ components path) : IsName name := by
  cases split : pieces path.toList with
  | nil => exact absurd split (pieces_ne_nil _)
  | cons p ps =>
      rw [components_eq split, List.mem_append, List.mem_append] at member
      rcases member with (front | first) | later
      · split at front
        · cases List.mem_singleton.mp front
        · cases front
      · exact isName_of_component? (not_mem_pieces (split ▸ List.mem_cons_self))
          (Option.mem_toList.mp first)
      · obtain ⟨q, member, component⟩ := List.mem_filterMap.mp later
        exact isName_of_component? (not_mem_pieces (split ▸ List.mem_cons_of_mem p member))
          component

/-- A name that is joined to a path is one more component. -/
theorem components_join (isName : IsName name) (base : String) :
    components (join base name) = components base ++ [.name name] := by
  by_cases nonempty : base = ""
  · have front : components "" = [] := by decide
    have joined : join base name = name := by
      rw [join, isName.isRooted_eq_false, if_neg Bool.false_ne_true, if_pos nonempty]
    rw [joined, nonempty, front, components_eq (pieces_of_not_mem isName.plain),
      isName.isRooted_eq_false, isName.component?]
    rfl
  · obtain ⟨front, joined, kept⟩ := exists_join isName nonempty
    cases split : pieces front with
    | nil => exact absurd split (pieces_ne_nil front)
    | cons p ps =>
        have last : [name.toList].filterMap (Path.component? false) = [.name name] := by
          rw [List.filterMap_cons, isName.component?]
          rfl
        have all : pieces (join base name).toList = p :: (ps ++ [name.toList]) := by
          rw [joined, pieces_append, split, pieces_of_not_mem isName.plain]
          rfl
        rw [components_eq all, isRooted_join isName nonempty, List.filterMap_append, last,
          ← List.append_assoc]
        rcases kept with same | slash
        · rw [components_eq (same ▸ split)]
        · have more : pieces base.toList = p :: (ps ++ [[]]) := by
            rw [slash, pieces_append, split]
            rfl
          rw [components_eq more, List.filterMap_append, ← List.append_assoc]
          exact congrArg (· ++ [Component.name name]) (List.append_nil _).symm

/-- What is joined to a path is one more component exactly if it can be the name of a file. -/
theorem components_join_iff :
    components (join base name) = components base ++ [.name name] ↔ IsName name := by
  refine ⟨fun joined => ?_, fun isName => components_join isName base⟩
  have member : Component.name name ∈ components (join base name) := by
    rw [joined]
    exact List.mem_append_right _ List.mem_cons_self
  exact isName_of_mem_components member

end components

section twoNames

variable {top : String}

/-- The pieces of a path that ends in two names, from the last one back. -/
theorem dropTail_pieces (isName : IsName name) (isName' : IsName base) (nonempty : top ≠ "") :
    ∃ ps, pieces (join top base).toList = ps ++ [base.toList] ∧
      dropTail (pieces (join (join top base) name).toList).reverse =
        name.toList :: base.toList :: ps.reverse ∧
      pieces (join (join top base) name).toList = ps ++ [base.toList, name.toList] := by
  obtain ⟨ps, split, -⟩ := pieces_join isName' nonempty
  have all : pieces (join (join top base) name).toList = ps ++ [base.toList, name.toList] := by
    rw [toList_join_join isName isName' nonempty, pieces_append, split,
      pieces_of_not_mem isName.plain, List.append_assoc]
    rfl
  refine ⟨ps, split, ?_, all⟩
  rw [all, List.reverse_append]
  exact if_pos (by rw [isName.component?]; rfl)

/-- The parent of a path that ends in two names is the path without the last of them. -/
theorem parent?_join (isName : IsName name) (isName' : IsName base) (nonempty : top ≠ "") :
    parent? (join (join top base) name) = some (join top base) := by
  obtain ⟨ps, split, tail, -⟩ := dropTail_pieces isName isName' nonempty
  have kept : dropTail (base.toList :: ps.reverse) = base.toList :: ps.reverse := by
    cases ps.reverse with
    | nil => exact if_pos (by rw [isName'.component?]; rfl)
    | cons p ps => exact if_pos (by rw [isName'.component?]; rfl)
  have text : glue (base.toList :: ps.reverse).reverse = (join top base).toList := by
    rw [List.reverse_cons, List.reverse_reverse, ← split, glue_pieces]
  rw [parent?, tail]
  simp only [kept, text, String.ofList_toList]

/-- Another extension for a path that ends in two names changes what follows the last dot in the
last of them. -/
theorem withExtension_join {extension : String} (isName : IsName name) (isName' : IsName base)
    (nonempty : top ≠ "") (hidden : stem name.toList ≠ ['.']) :
    withExtension (join (join top base) name) extension =
      String.ofList ((join top base).toList ++
        '/' :: (stem name.toList ++ '.' :: extension.toList)) := by
  obtain ⟨ps, split, tail, all⟩ := dropTail_pieces isName isName' nonempty
  have fileName : fileName? (join (join top base) name) = some name := by
    rw [fileName?, last?_eq_name isName (ps.append_cons base.toList [name.toList] ▸ all)]
  have text : glue (stem name.toList :: base.toList :: ps.reverse).reverse =
      (join top base).toList ++ '/' :: stem name.toList := by
    rw [List.reverse_cons, List.reverse_cons, List.reverse_reverse, ← split,
      glue_append (pieces_ne_nil _), glue_pieces]
  rw [withExtension, fileName, tail]
  simp only [text]
  rw [if_neg fun both => hidden both.1, List.append_assoc, List.cons_append]

end twoNames

end Path

namespace Disk

open BudgetedRun.Path

variable {base name : String}

/-- A path with a name at its end has that name after all others. -/
theorem names_join (isName : IsName name) (nonempty : base ≠ "") :
    names (join base name) = names base ++ [name] := by
  obtain ⟨ps, split, front⟩ := pieces_join isName nonempty
  have last : [name.toList].filter (· ≠ []) = [name.toList] :=
    List.filter_cons_of_pos (decide_eq_true isName.toList_ne_nil)
  rw [names, split, List.filter_append, last, front, List.map_append, names, List.map_singleton,
    String.ofList_toList]

end Disk

end BudgetedRun
