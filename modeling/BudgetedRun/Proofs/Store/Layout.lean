import BudgetedRun.Proofs.File.Site
import BudgetedRun.Store.Directory

/-!
# The tree of a store

What lies below the base directory of a store: a directory of runs, in it a directory for each run,
and in that nothing but files (`Node.IsStore`). Saving a state and writing a log keep it so. They
make the directory of their run, if it is missing, and change one file in it.
-/

namespace BudgetedRun

open Disk BudgetedRun.Path

/-- An id that is accepted has no fault. -/
theorem RunId.fault?_of_check {id : String} (accepted : check id = .ok ()) : fault? id = none := by
  rw [check] at accepted
  split at accepted
  · assumption
  · cases accepted

/-- Run ids are names. -/
theorem RunId.isName {id : String} (accepted : RunId.fault? id = none) : IsName id := by
  rw [RunId.fault?] at accepted
  split at accepted
  · cases accepted
  rename_i nonempty
  split at accepted
  · cases accepted
  rename_i absolute
  rw [not_or] at absolute
  split at accepted
  · rename_i plain
    refine ⟨nonempty, absolute.1, absolute.2, fun slash => ?_⟩
    exact absurd (List.all_eq_true.mp plain '/' slash) (by decide)
  · cases accepted

namespace RunPaths

variable {base runId : String}

/-- The name of a temporary file. -/
def temporaryName (tag : TemporaryTag) : String := s!"snapshot.json.{tag.process}.{tag.count}.tmp"

/-- The name of a temporary file starts like that of the snapshot. -/
theorem toList_temporaryName (tag : TemporaryTag) :
    (temporaryName tag).toList =
      stem "snapshot.json".toList ++ '.' :: (s!"json.{tag.process}.{tag.count}.tmp").toList := by
  have stem : stem "snapshot.json".toList = "snapshot".toList := by decide
  unfold temporaryName
  simp only [stem, String.toList_append]
  rfl

/-- A temporary file is not called by a short name. -/
theorem temporaryName_ne (tag : TemporaryTag) {name : String} (short : name.length < 14) :
    temporaryName tag ≠ name := by
  have front : (toString "snapshot.json.").length = 14 := by decide
  have long : 14 ≤ (temporaryName tag).length := by
    unfold temporaryName
    simp only [String.length_append, front]
    omega
  exact fun same => absurd (same ▸ long) (Nat.not_le.mpr short)

/-- The name of a temporary file can stand in a path. -/
theorem isName_temporaryName (tag : TemporaryTag) : IsName (temporaryName tag) := by
  have digits (n : Nat) : '/' ∉ (toString n).toList := by
    rw [Nat.toString_eq_ofList_toDigits, String.toList_ofList]
    exact fun slash =>
      absurd (Nat.isDigit_of_mem_toDigits (by decide) (by decide) slash) (by decide)
  have plain : '/' ∉ (temporaryName tag).toList := by
    unfold temporaryName
    simp only [String.toList_append, List.mem_append, not_or]
    exact ⟨⟨⟨⟨by decide, digits _⟩, by decide⟩, digits _⟩, by decide⟩
  exact ⟨temporaryName_ne tag (by decide), temporaryName_ne tag (by decide),
    temporaryName_ne tag (by decide), plain⟩

theorem isName_runs : IsName "runs" := ⟨by decide, by decide, by decide, by decide⟩

theorem isName_snapshot : IsName "snapshot.json" := ⟨by decide, by decide, by decide, by decide⟩

theorem isName_log : IsName "log.jsonl" := ⟨by decide, by decide, by decide, by decide⟩

/-- The directory of runs is below the base directory. -/
theorem below_runs (nonempty : base ≠ "") : Below base (runs base) ["runs"] :=
  .join nonempty isName_runs

/-- The path of the directory of runs is never empty. -/
theorem runs_ne_empty (base : String) : runs base ≠ "" := by
  by_cases nonempty : base = ""
  · rw [nonempty]
    decide
  · exact join_ne_empty isName_runs nonempty

/-- The path of the directory of runs has one more name than that of the base directory. -/
theorem names_runs (base : String) : names (runs base) = names base ++ ["runs"] := by
  by_cases nonempty : base = ""
  · rw [nonempty]
    decide
  · exact names_join isName_runs nonempty

/-- The directory of a run is below the base directory. -/
theorem below_directory (nonempty : base ≠ "") (isName : IsName runId) :
    Below base (of base runId).directory ["runs", runId] :=
  (below_runs nonempty).join' isName

/-- A file of a run is below the base directory. -/
theorem below_file {name : String} (nonempty : base ≠ "") (isName : IsName runId)
    (isName' : IsName name) :
    Below base (Path.join (of base runId).directory name) ["runs", runId, name] :=
  (below_directory nonempty isName).join' isName'

/-- The parent of a snapshot is the directory of its run. -/
theorem parent?_snapshot (isName : IsName runId) :
    Path.parent? (of base runId).snapshot = some (of base runId).directory :=
  parent?_join isName_snapshot isName (runs_ne_empty base)

/-- The temporary file beside a snapshot is in the directory of the run. -/
theorem temporary_eq (isName : IsName runId) (tag : TemporaryTag) :
    temporary (of base runId).snapshot tag =
      Path.join (of base runId).directory (temporaryName tag) := by
  have runs := runs_ne_empty base
  apply String.toList_inj.mp
  rw [temporary, of, withExtension_join isName_snapshot isName runs (by decide),
    String.toList_ofList, toList_join_join (isName_temporaryName tag) isName runs,
    toList_temporaryName]

end RunPaths

namespace Node

variable {n m : Node} {f : Node → Node} {id x : String} {ms : List String}
  {es : List (String × Node)}

section grow

/-- A directory stays one, and a file a file, when an entry grows in it. -/
theorem isDirectory_grow (n : Node) (ms : List String) (x : String) :
    (n.grow ms x).isDirectory = n.isDirectory := by
  rw [grow]
  split
  · cases ms with
    | nil => exact isDirectory_put n x _
    | cons y ms => exact isDirectory_modify _ n y ms
  · rfl

/-- The directory that was asked for is there. -/
theorem get?_grow (found : n.get? ms = some (.directory es)) {ys : List String}
    (length : ys.length = ms.length) (y : String) :
    (n.grow ms x).get? (ys ++ [y]) =
      if ys = ms ∧ y = x then some ((n.get? (ms ++ [x])).getD (.directory []))
      else n.get? (ys ++ [y]) := by
  rw [grow]
  cases there : n.get? (ms ++ [x]) with
  | none =>
      rw [if_pos Option.isNone_none, get?_modify_append _ n [y] length]
      by_cases same : ys = ms
      · subst same
        rw [if_pos rfl, found, Option.bind_some, get?_put_cons rfl]
        by_cases own : y = x
        · rw [if_pos own, if_pos ⟨rfl, own⟩]
          rfl
        · rw [if_neg own, if_neg fun both => own both.2, get?_append, found, Option.bind_some]
      · rw [if_neg same, if_neg fun both => same both.1]
  | some m =>
      rw [Option.isNone_some, if_neg Bool.false_ne_true]
      split
      · rename_i same
        rw [same.1, same.2, there]
        rfl
      · rfl

/-- A directory that is made is empty. -/
theorem get?_grow_deep (found : n.get? ms = some (.directory es)) {ys : List String}
    (length : ys.length = ms.length) (y z : String) (zs : List String) :
    (n.grow ms x).get? (ys ++ y :: z :: zs) = n.get? (ys ++ y :: z :: zs) := by
  rw [grow]
  split
  · rename_i missing
    rw [get?_modify_append _ n (y :: z :: zs) length]
    by_cases same : ys = ms
    · subst same
      rw [if_pos rfl, found, Option.bind_some, get?_put_cons rfl, get?_append, found,
        Option.bind_some]
      by_cases own : y = x
      · rw [if_pos own]
        subst own
        rw [get?_append, found, Option.bind_some] at missing
        rw [Option.isNone_iff_eq_none] at missing
        exact (get?_append_of_none missing (z :: zs)).symm
      · rw [if_neg own]
    · rw [if_neg same]
  · rfl

end grow

/-- The tree below the base directory of a store: a directory of runs, if any, with a directory for
each run, with nothing but files in it. -/
structure IsStore (n : Node) : Prop where
  base : n.isDirectory = true
  runs : ∀ m, n.get? ["runs"] = some m → m.isDirectory = true
  run : ∀ id m, n.get? ["runs", id] = some m → m.isDirectory = true
  file : ∀ id x m, n.get? ["runs", id, x] = some m → m.isDirectory = false

/-- A change in the directory of a run changes what is in that directory only. -/
theorem get?_modify_run (found : n.get? ["runs", id] = some m) (id' : String) (zs : List String) :
    (n.modify f ["runs", id]).get? ("runs" :: id' :: zs) =
      if id' = id then (f m).get? zs else n.get? ("runs" :: id' :: zs) := by
  have changed : (n.modify f ["runs", id]).get? (["runs", id'] ++ zs) =
      if ["runs", id'] = ["runs", id] then (n.get? ["runs", id]).bind fun m => (f m).get? zs
      else n.get? (["runs", id'] ++ zs) := get?_modify_append f n zs rfl
  rw [found] at changed
  refine changed.trans ?_
  simp only [List.cons.injEq, true_and, and_true]
  rfl

namespace IsStore

variable {rs : List (String × Node)}

/-- A directory with nothing in it yet can be the base of a store. -/
theorem empty : (Node.directory []).IsStore where
  base := rfl
  runs := by
    intro m there
    cases there
  run := by
    intro id m there
    cases there
  file := by
    intro id x m there
    cases there

/-- In a store no file is in the place of the directory of runs. -/
theorem runs_ne_file (isStore : n.IsStore) (content : ByteArray) :
    n.get? ["runs"] ≠ some (.file content) :=
  fun there => Bool.false_ne_true (isStore.runs _ there)

/-- In a store no file is in the place of the directory of a run. -/
theorem run_ne_file (isStore : n.IsStore) (id : String) (content : ByteArray) :
    n.get? ["runs", id] ≠ some (.file content) :=
  fun there => Bool.false_ne_true (isStore.run id _ there)

/-- In a store no directory is in the place of a file of a run. -/
theorem file_ne_directory (isStore : n.IsStore) (id x : String) (es : List (String × Node)) :
    n.get? ["runs", id, x] ≠ some (.directory es) :=
  fun there => Bool.false_ne_true (isStore.file id x _ there).symm

/-- A store that gets a directory of runs is a store with the same files. -/
theorem grow_runs (isStore : n.IsStore) :
    (n.grow [] "runs").IsStore ∧ (∃ rs, (n.grow [] "runs").get? ["runs"] = some (.directory rs)) ∧
      ∀ id y, (n.grow [] "runs").get? ["runs", id, y] = n.get? ["runs", id, y] := by
  obtain ⟨es, found⟩ := exists_directory isStore.base
  have found : n.get? [] = some (.directory es) := congrArg some found
  have top : (n.grow [] "runs").get? ["runs"] =
      some ((n.get? ["runs"]).getD (.directory [])) := get?_grow found rfl "runs"
  have deep (id : String) (zs : List String) :
      (n.grow [] "runs").get? ("runs" :: id :: zs) = n.get? ("runs" :: id :: zs) :=
    get?_grow_deep found rfl "runs" id zs
  have runs : ((n.get? ["runs"]).getD (.directory [])).isDirectory = true := by
    cases there : n.get? ["runs"] with
    | none => rfl
    | some m => exact isStore.runs m there
  refine ⟨⟨?_, ?_, ?_, ?_⟩, ?_, fun id y => deep id [y]⟩
  · exact (isDirectory_grow n _ _).trans isStore.base
  · intro m there
    obtain rfl := Option.some.inj (top.symm.trans there)
    exact runs
  · intro id m there
    exact isStore.run id m ((deep id []).symm.trans there)
  · intro id x m there
    exact isStore.file id x m ((deep id [x]).symm.trans there)
  · obtain ⟨rs, same⟩ := exists_directory runs
    exact ⟨rs, top.trans (congrArg some same)⟩

/-- A store that gets a directory for a run is a store with the same files. -/
theorem grow_run (isStore : n.IsStore) (found : n.get? ["runs"] = some (.directory rs))
    (id : String) :
    (n.grow ["runs"] id).IsStore ∧
      (∃ es, (n.grow ["runs"] id).get? ["runs", id] = some (.directory es)) ∧
      ∀ id' y, (n.grow ["runs"] id).get? ["runs", id', y] = n.get? ["runs", id', y] := by
  have run (id' : String) : (n.grow ["runs"] id).get? ["runs", id'] =
      if ["runs"] = ["runs"] ∧ id' = id then some ((n.get? ["runs", id]).getD (.directory []))
      else n.get? ["runs", id'] := get?_grow found rfl id'
  have deep (id' y : String) :
      (n.grow ["runs"] id).get? ["runs", id', y] = n.get? ["runs", id', y] :=
    get?_grow_deep found rfl id' y []
  have own : ((n.get? ["runs", id]).getD (.directory [])).isDirectory = true := by
    cases there : n.get? ["runs", id] with
    | none => rfl
    | some m => exact isStore.run id m there
  refine ⟨⟨?_, ?_, ?_, ?_⟩, ?_, deep⟩
  · exact (isDirectory_grow n _ _).trans isStore.base
  · intro m there
    rw [Node.grow] at there
    split at there
    · rw [get?_modify found] at there
      obtain rfl := Option.some.inj there
      rfl
    · exact isStore.runs m there
  · intro id' m there
    rw [run] at there
    split at there
    · obtain rfl := Option.some.inj there
      exact own
    · exact isStore.run id' m there
  · intro id' x m there
    exact isStore.file id' x m ((deep id' x).symm.trans there)
  · obtain ⟨es, same⟩ := exists_directory own
    have there := run id
    rw [if_pos ⟨rfl, rfl⟩, same] at there
    exact ⟨es, there⟩

/-- A change in the directory of a run that leaves nothing but files there. -/
theorem modify_run (isStore : n.IsStore) (found : n.get? ["runs", id] = some m)
    (directory : ∀ m, (f m).isDirectory = m.isDirectory)
    (files : ∀ y c, (f m).get? [y] = some c → c.isDirectory = false) :
    (n.modify f ["runs", id]).IsStore where
  base := (isDirectory_modify f n _ _).trans isStore.base
  runs := by
    intro m' there
    have below : (n.modify f ["runs", id]).get? ["runs"] =
        (n.entry? "runs").bind fun child => some (child.modify f [id]) :=
      get?_modify_cons f n "runs" "runs" [id] []
    rw [below] at there
    cases entry : n.entry? "runs" with
    | none =>
        rw [entry] at there
        cases there
    | some child =>
        rw [entry] at there
        obtain rfl := Option.some.inj there
        rw [isDirectory_modify]
        apply isStore.runs
        rw [get?_cons, entry]
        rfl
  run := by
    intro id' m' there
    rw [get?_modify_run found] at there
    split at there
    · obtain rfl := Option.some.inj there
      rw [directory]
      exact isStore.run id m found
    · exact isStore.run id' m' there
  file := by
    intro id' x m' there
    rw [get?_modify_run found] at there
    split at there
    · exact files x m' there
    · exact isStore.file id' x m' there

/-- A file in the directory of a run. -/
theorem putFile (isStore : n.IsStore) (found : n.get? ["runs", id] = some (.directory es))
    (x : String) (content : ByteArray) :
    (n.modify (Node.put x (.file content)) ["runs", id]).IsStore ∧
      (∃ es', (n.modify (Node.put x (.file content)) ["runs", id]).get? ["runs", id] =
        some (.directory es')) ∧
      ∀ id' y, (n.modify (Node.put x (.file content)) ["runs", id]).get? ["runs", id', y] =
        if id' = id ∧ y = x then some (.file content) else n.get? ["runs", id', y] := by
  have inside (y : String) : (Node.put x (.file content) (.directory es)).get? [y] =
      if y = x then some (.file content) else n.get? ["runs", id, y] := by
    have below : n.get? (["runs", id] ++ [y]) = (Node.directory es).get? [y] := by
      rw [get?_append, found, Option.bind_some]
    rw [get?_put_cons rfl, ← below]
    rfl
  refine ⟨isStore.modify_run found (fun m => isDirectory_put m x _) ?_, ⟨_, get?_modify found⟩, ?_⟩
  · intro y c there
    rw [inside] at there
    split at there
    · obtain rfl := Option.some.inj there
      rfl
    · exact isStore.file id y c there
  · intro id' y
    rw [get?_modify_run found]
    by_cases own : id' = id
    · subst own
      rw [if_pos rfl, inside]
      simp only [true_and]
    · rw [if_neg own, if_neg fun both => own both.1]

/-- The directory of a run without one of its files. -/
theorem dropFile (isStore : n.IsStore) (distinct : n.Distinct)
    (found : n.get? ["runs", id] = some (.directory es)) (x : String) :
    (n.modify (Node.drop x) ["runs", id]).IsStore ∧
      (∃ es', (n.modify (Node.drop x) ["runs", id]).get? ["runs", id] = some (.directory es')) ∧
      ∀ id' y, (n.modify (Node.drop x) ["runs", id]).get? ["runs", id', y] =
        if id' = id ∧ y = x then none else n.get? ["runs", id', y] := by
  have inside (y : String) : ((Node.directory es).drop x).get? [y] =
      if y = x then none else n.get? ["runs", id, y] := by
    have below : n.get? (["runs", id] ++ [y]) = (Node.directory es).get? [y] := by
      rw [get?_append, found, Option.bind_some]
    by_cases own : y = x
    · rw [if_pos own, own, (distinct.get found).get?_drop]
    · rw [if_neg own, get?_drop_of_ne own, ← below]
      rfl
  refine ⟨isStore.modify_run found (fun m => isDirectory_drop m x) ?_, ⟨_, get?_modify found⟩, ?_⟩
  · intro y c there
    rw [inside] at there
    split at there
    · cases there
    · exact isStore.file id y c there
  · intro id' y
    rw [get?_modify_run found]
    by_cases own : id' = id
    · subst own
      rw [if_pos rfl, inside]
      simp only [true_and]
    · rw [if_neg own, if_neg fun both => own both.1]

end IsStore

end Node

namespace Disk

/-- The directory of a run can be made. -/
theorem Site.makeDirectories_eq {d : Disk} {base id : String} {dir : List String} {n : Node}
    (site : d.Site base dir n) (isStore : n.IsStore) (isName : IsName id)
    (admissible : Admissible (RunPaths.of base id).directory) :
    ∃ d', d.makeDirectories (RunPaths.of base id).directory = (.ok (), d') ∧
      d'.Site base dir ((n.grow [] "runs").grow ["runs"] id) := by
  have below : Below base (RunPaths.of base id).directory ["runs", id] :=
    RunPaths.below_directory site.nonempty isName
  have short := below.short admissible
  have origin : d.origin (RunPaths.of base id).directory = d.origin base := by
    rw [Disk.origin, below.rooted, Disk.origin]
  obtain ⟨isStore', ⟨rs, runs⟩, -⟩ := isStore.grow_runs
  obtain ⟨es, same⟩ := Node.exists_directory isStore.base
  have top : n.get? [] = some (.directory es) := congrArg some same
  obtain ⟨missed, d₁, first, site₁⟩ := site.makeWalk_cons RunPaths.isName_runs
    (short "runs" List.mem_cons_self) top isStore.runs_ne_file false [id]
  obtain ⟨_, d₂, second, site₂⟩ := site₁.makeWalk_cons isName
    (short id (List.mem_cons_of_mem _ List.mem_cons_self)) runs (isStore'.run_ne_file id) missed []
  refine ⟨d₂, ?_, site₂⟩
  rw [List.append_nil] at first
  rw [makeDirectories, admissible.faultless]
  simp only
  rw [origin, below.names, site.arrives.makeWalk, first, List.nil_append, second]
  rfl

/-- A file of a run is found by way of its path, if it is there. -/
theorem Site.find_file {d : Disk} {base id x path : String} {dir : List String} {n : Node}
    (site : d.Site base dir n) (isStore : n.IsStore) (below : Below base path ["runs", id, x])
    (admissible : Admissible path) :
    d.find path = (n.get? ["runs", id, x]).elim (.error .notFound) .ok := by
  have short := below.short admissible
  have walked := site.locate_eq_walk below admissible.faultless (List.cons_ne_nil _ _)
  have isRuns := below.areNames "runs" List.mem_cons_self
  have isName := below.areNames id (List.mem_cons_of_mem _ List.mem_cons_self)
  have notLong := short id (List.mem_cons_of_mem _ List.mem_cons_self)
  rw [walk, if_neg isRuns.notCurrent, if_neg isRuns.notParent,
    if_neg (short "runs" List.mem_cons_self), if_neg (List.cons_ne_nil _ _),
    site.get?_append] at walked
  cases runs : n.get? ["runs"] with
  | none =>
      rw [runs] at walked
      have nothing : n.get? ["runs", id, x] = none := Node.get?_append_of_none runs [id, x]
      rw [find, walked, nothing]
      rfl
  | some m =>
      cases m with
      | file content => exact absurd runs (isStore.runs_ne_file content)
      | directory rs =>
          rw [runs] at walked
          simp only at walked
          rw [walk, if_neg isName.notCurrent, if_neg isName.notParent, if_neg notLong,
            if_neg (List.cons_ne_nil _ _), List.append_assoc, site.get?_append] at walked
          cases run : n.get? ["runs", id] with
          | none =>
              have missing : n.get? (["runs"] ++ [id]) = none := run
              have nothing : n.get? ["runs", id, x] = none := Node.get?_append_of_none run [x]
              rw [missing] at walked
              rw [find, walked, nothing]
              rfl
          | some m =>
              cases m with
              | file content => exact absurd run (isStore.run_ne_file id content)
              | directory es => exact site.find_eq below admissible run

end Disk

end BudgetedRun
