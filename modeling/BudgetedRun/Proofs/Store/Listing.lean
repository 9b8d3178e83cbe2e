import BudgetedRun.Proofs.Engine.Simulation
import BudgetedRun.Proofs.Store.Holding
import Mathlib.Data.List.Sort

/-!
# Listing the runs of any tree

The runs that are listed are those whose snapshot is present, whatever else lies in the tree
(`DirectoryStore.mem_withSnapshots`). A snapshot that can be loaded is present, and one that is
present is not taken for missing, so listing and loading agree on which runs there are
(`DirectoryStore.listing_agrees_with_loading`).
-/

namespace BudgetedRun

open Disk BudgetedRun.Path

namespace RunPaths

variable {base runId x : String}

/-- A file of a run is two names below the directory of runs. -/
theorem below_run (isName : IsName runId) (isName' : IsName x) :
    Below (runs base) (Path.join (of base runId).directory x) [runId, x] :=
  (Below.join (runs_ne_empty base) isName).join' isName'

end RunPaths

namespace DirectoryStore

variable {machine : Machine} {base runId : String} {d : Disk} {s : RunState} {ids : List String}
  {es : List (String × Node)}

/-- What is answered when a run is loaded. -/
def loaded (base runId : String) (machine : Machine) : Except StoreError (Option RunState) :=
  ((load base runId : StateM Machine (Except StoreError (Option RunState))).run machine).1

/-- What is answered when the runs are listed. -/
def listed (base : String) (machine : Machine) : Except StoreError (List String) :=
  ((list base : StateM Machine (Except StoreError (List String))).run machine).1

/-- A snapshot that is present is in the directory of the runs, which can be listed. -/
theorem find_runs_of_isPresent (accepted : RunId.fault? runId = none)
    (present : d.isPresent (RunPaths.of base runId).snapshot = true) :
    ∃ es, d.find (RunPaths.runs base) = .ok (.directory es) ∧ runId ∈ es.map (·.1) := by
  have isName := RunId.isName accepted
  have nonempty := RunPaths.runs_ne_empty base
  have below : Below (RunPaths.runs base) (RunPaths.of base runId).snapshot
      ([runId] ++ ["snapshot.json"]) := RunPaths.below_run isName RunPaths.isName_snapshot
  obtain ⟨m, found⟩ := find_of_isPresent present
  obtain ⟨place, located, -⟩ := find_ok found
  obtain ⟨dir, n, es, site, run, -, admissible⟩ :=
    Site.of_locate nonempty below (List.cons_ne_nil _ _) located
  obtain ⟨rs, rfl⟩ := Node.eq_directory_of_get? run
  have faultless : pathFault? (RunPaths.runs base) = none :=
    Admissible.pathFault?_of_join nonempty isName
      (Admissible.pathFault?_of_join (Below.join nonempty isName).nonempty RunPaths.isName_snapshot
        admissible.faultless)
  refine ⟨rs, site.find_self faultless, Entries.mem_map_key.mpr fun missing => ?_⟩
  rw [Node.get?_cons, Node.entry?, missing] at run
  cases run

/-- The runs with a snapshot in the directory of the runs are all runs with a snapshot. -/
theorem mem_withSnapshots (found : d.find (RunPaths.runs base) = .ok (.directory es))
    (id : String) :
    id ∈ withSnapshots base d (es.map (·.1)) ↔
      RunId.fault? id = none ∧ d.isPresent (RunPaths.of base id).snapshot = true := by
  rw [withSnapshots, List.mem_filter, Bool.and_eq_true, Option.isNone_iff_eq_none]
  refine ⟨And.right, fun kept => ⟨?_, kept⟩⟩
  obtain ⟨es', found', member⟩ := find_runs_of_isPresent kept.1 kept.2
  cases found.symm.trans found'
  exact member

/-- A run that loads has an accepted id, and its snapshot is present. -/
theorem isPresent_of_loaded (loads : loaded base runId machine = .ok (some s)) :
    RunId.fault? runId = none ∧
      machine.disk.isPresent (RunPaths.of base runId).snapshot = true := by
  rw [loaded] at loads
  cases checked : RunId.check runId with
  | error e =>
      have refused : paths base runId = .error (.invalidRunId e) := by rw [paths, checked]
      rw [load, refused] at loads
      cases loads
  | ok _ =>
      have accepted := RunId.fault?_of_check checked
      refine ⟨accepted, ?_⟩
      rw [isPresent]
      cases found : machine.disk.find (RunPaths.of base runId).snapshot with
      | ok m => rfl
      | error e =>
          have unread : machine.disk.read (RunPaths.of base runId).snapshot = .error e := by
            rw [Disk.read, found]
          rw [load_run_unread accepted unread] at loads
          simp only at loads
          split at loads <;> cases loads

/-- A run whose snapshot is present is not taken for missing: it loads, or this is an error. -/
theorem loaded_ne_none (accepted : RunId.fault? runId = none)
    (present : machine.disk.isPresent (RunPaths.of base runId).snapshot = true) :
    loaded base runId machine ≠ .ok none := by
  obtain ⟨m, found⟩ := find_of_isPresent present
  rw [loaded]
  cases m with
  | directory es =>
      have unread : machine.disk.read (RunPaths.of base runId).snapshot = .error .isADirectory := by
        rw [Disk.read, found]
      rw [load_run_unread accepted unread]
      exact fun missing => by cases missing
  | file content =>
      have reads : (FileSystem.readFile (RunPaths.of base runId).snapshot :
          StateM Machine (Except FileError ByteArray)).run machine = (.ok content, machine) := by
        change (machine.disk.read _, machine) = _
        rw [Disk.read, found]
      rw [load, paths_eq accepted]
      simp only
      rw [FileSystem.readText, bind_assoc, run_bind_eq reads]
      simp only
      cases String.fromUTF8? content with
      | none => exact fun missing => by cases missing
      | some text =>
          change (readState _ runId text).map some ≠ _
          cases readState (RunPaths.of base runId).snapshot runId text with
          | error e => exact fun missing => by cases missing
          | ok s => exact fun missing => by cases missing

/-- A run that loads is listed. The runs that are listed are in ascending order, each once, their
ids are accepted, and none of them is missing when it is loaded. -/
theorem listing_agrees_with_loading (base : String) (machine : Machine) :
    (∀ id s, loaded base id machine = .ok (some s) →
      ∃ ids, listed base machine = .ok ids ∧ id ∈ ids) ∧
    ∀ ids, listed base machine = .ok ids →
      ids.Pairwise (· < ·) ∧
      ∀ id ∈ ids, RunId.check id = .ok () ∧ loaded base id machine ≠ .ok none := by
  refine ⟨fun id s loads => ?_, fun ids lists => ?_⟩
  · obtain ⟨accepted, present⟩ := isPresent_of_loaded loads
    obtain ⟨es, found, -⟩ := find_runs_of_isPresent accepted present
    have names : machine.disk.list (RunPaths.runs base) = .ok (es.map (·.1)) := by
      rw [Disk.list, found]
    exact ⟨_, congrArg Prod.fst (list_run_of_list names),
      List.mem_mergeSort.mpr ((mem_withSnapshots found id).mpr ⟨accepted, present⟩)⟩
  · rw [listed] at lists
    cases names : machine.disk.list (RunPaths.runs base) with
    | error e =>
        -- Without a directory of runs there is nothing to list.
        rw [list_run_unread names] at lists
        simp only at lists
        split at lists
        · cases lists
          exact ⟨List.Pairwise.nil, List.forall_mem_nil _⟩
        · cases lists
    | ok found =>
        rw [list_run_of_list names] at lists
        cases lists
        obtain ⟨es, found, rfl⟩ := find_of_list names
        refine ⟨withSnapshots_ascending found, fun id member => ?_⟩
        obtain ⟨accepted, present⟩ :=
          (mem_withSnapshots found id).mp (List.mem_mergeSort.mp member)
        exact ⟨by rw [RunId.check, accepted], loaded_ne_none accepted present⟩

/-- A machine for rehearsals, with some files. -/
def holding (files : Tree) : Machine where
  disk := ⟨files, []⟩
  process := 7
  tags := 0
  dayClock := fun _ => World.dawn
  steadyClock := fun _ => 0
  readings := 0
  waited := 0

/-- A run that has just started loads from a machine for rehearsals, if its snapshot is there. -/
theorem loaded_holding {files : Tree} (out : files.node.get? ["out"] = some (.directory es))
    (there : (Node.directory es).get? ["runs", runId, "snapshot.json"] =
      some (.file (RunState.start runId "plan" World.dawn).snapshot.toUTF8))
    (accepted : RunId.fault? runId = none)
    (consistent : (RunState.start runId "plan" World.dawn).violations = [])
    (admissible : Admissible (RunPaths.of "out" runId).snapshot) :
    loaded "out" runId (holding files) = .ok (some (RunState.start runId "plan" World.dawn)) := by
  have names : names "out" = ["out"] := by decide +kernel
  have origin : (holding files).disk.origin "out" = [] := by rw [origin]; rfl
  have found : (holding files).disk.root.get? ["out"] = some (.directory es) := out
  have holds : Holds "out" runId (RunState.start runId "plan" World.dawn).snapshot
      (holding files).disk := by
    refine ⟨admissible, ["out"], _, ⟨by decide, ?_, found⟩, there⟩
    rw [names, origin]
    exact .name (by decide) (by decide) (by decide) found .done
  have own : (RunState.start runId "plan" World.dawn).runId = runId := rfl
  have loads := @Holds.load_run (holding files) "out" (RunState.start runId "plan" World.dawn)
    (own.symm ▸ holds) (own.symm ▸ accepted) consistent
  rw [own] at loads
  rw [loaded, loads]

/-- A store with two runs, of which one has a directory in place of its snapshot, among other
things, in no order. -/
def cluttered : Tree where
  node := .directory [("out", .directory [("runs", .directory
    [("no run", .directory [("snapshot.json", .file .empty)]),
      ("b", .directory [("snapshot.json",
        .file (RunState.start "b" "plan" World.dawn).snapshot.toUTF8)]),
      ("c", .file .empty), ("a", .directory [("snapshot.json", .directory [])])])])]
  distinct := by
    have single {name : String} {child : Node} (distinct : child.Distinct) :
        (Node.directory [(name, child)]).Distinct :=
      .directory (List.nodup_singleton _) (List.forall_mem_singleton.mpr distinct)
    refine single (single (.directory (by decide) ?_))
    simp only [List.forall_mem_cons]
    exact ⟨single .file, single .file, .file, single (.directory .nil (List.forall_mem_nil _)),
      List.forall_mem_nil _⟩

/-- A run is found among other things, and what is no run is passed over. -/
theorem cluttered_listing_agrees :
    loaded "out" "b" (holding cluttered) = .ok (some (RunState.start "b" "plan" World.dawn)) ∧
      (∃ ids, listed "out" (holding cluttered) = .ok ids ∧ "b" ∈ ids) ∧
      listed "out" (holding cluttered) = .ok ["a", "b"] ∧
      loaded "out" "a" (holding cluttered) ≠ .ok none := by
  have loads : loaded "out" "b" (holding cluttered) =
      .ok (some (RunState.start "b" "plan" World.dawn)) :=
    loaded_holding rfl rfl rfl (by decide +kernel) (by decide +kernel)
  have names : (holding cluttered).disk.list (RunPaths.runs "out") =
      .ok ["no run", "b", "c", "a"] := by
    decide +kernel
  have kept : withSnapshots "out" (holding cluttered).disk ["no run", "b", "c", "a"] =
      ["b", "a"] := by
    decide +kernel
  have sorted : ["b", "a"].mergeSort (· ≤ ·) = ["a", "b"] := by
    have same : (["b", "a"].mergeSort (· ≤ ·)).Perm ["a", "b"] :=
      (List.mergeSort_perm _ _).trans (.swap _ _ _)
    exact same.eq_of_pairwise (fun _ _ _ _ below above => absurd above (String.lt_asymm below))
      (mergeSort_ascending (by decide)) (by decide)
  have lists : listed "out" (holding cluttered) = .ok ["a", "b"] := by
    rw [listed, list_run_of_list names, kept, sorted]
  obtain ⟨included, sound⟩ := listing_agrees_with_loading "out" (holding cluttered)
  exact ⟨loads, included _ _ loads, lists, ((sound _ lists).2 "a" List.mem_cons_self).2⟩

end DirectoryStore

end BudgetedRun
