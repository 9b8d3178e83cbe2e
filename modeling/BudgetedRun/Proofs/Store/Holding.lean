import BudgetedRun.Proofs.Run.Snapshot
import BudgetedRun.Proofs.Store.Directory

/-!
# A snapshot in any tree

What a store in a directory does to a tree of which nothing is known. A state that was saved, as the
store said, is in its file (`DirectoryStore.Holds.of_save`). As long as it is there, it is what is
loaded and it is listed, and a log that is written, or that cannot be written, leaves it there
(`DirectoryStore.Holds.writeRunLog`).
-/

namespace BudgetedRun

open Disk BudgetedRun.Path

namespace Disk.Site

variable {d : Disk} {base x y : String} {dir ms : List String} {n : Node}
  {es : List (String × Node)} {content : ByteArray}

/-- A file that is written is there, beside the others. -/
theorem written (site : d.Site base dir n) (found : n.get? ms = some (.directory es))
    (vacant : ∀ es', n.get? (ms ++ [x]) ≠ some (.directory es')) :
    ∃ n' es', (d.put (dir ++ ms) x (.file content)).Site base dir n' ∧
      n'.get? ms = some (.directory es') ∧ n'.get? (ms ++ [x]) = some (.file content) ∧
      ∀ y, y ≠ x → n'.get? (ms ++ [y]) = n.get? (ms ++ [y]) :=
  ⟨_, _, site.putFile found vacant content, Node.get?_modify found,
    (Node.get?_modify_put found _ x).trans (if_pos rfl), fun y another =>
    (Node.get?_modify_put found _ y).trans (if_neg another)⟩

/-- A file that is moved within a directory is there. -/
theorem moved (site : d.Site base dir n) (found : n.get? ms = some (.directory es))
    (there : n.get? (ms ++ [x]) = some (.file content)) (another : y ≠ x)
    (vacant : ∀ es', n.get? (ms ++ [y]) ≠ some (.directory es')) :
    ∃ n', ((d.drop (dir ++ ms) x).put (dir ++ ms) y (.file content)).Site base dir n' ∧
      n'.get? (ms ++ [y]) = some (.file content) := by
  have dropped := site.drop found fun es' directory => by cases there.symm.trans directory
  have found' : (n.modify (Node.drop x) ms).get? ms = some (.directory (Entries.erase x es)) :=
    Node.get?_modify found
  rw [← Node.get?_modify_drop found another] at vacant
  obtain ⟨n', es', site', -, there', -⟩ := dropped.written found' vacant
  exact ⟨n', site', there'⟩

end Disk.Site

namespace DirectoryStore

variable {machine : Machine} {base runId text : String} {d d' : Disk} {s : RunState}

/-- The snapshot of a run is in its place and has some text. -/
structure Holds (base runId text : String) (d : Disk) : Prop where
  admissible : Admissible (RunPaths.of base runId).snapshot
  there : ∃ dir n, d.Site base dir n ∧
    n.get? ["runs", runId, "snapshot.json"] = some (.file text.toUTF8)

/-- A snapshot that was replaced, as the store says, was written and moved to its place. -/
theorem replace_ok {snapshot : String}
    (said : ((replace snapshot text : StateM Machine (Except StoreError Unit)).run machine).1 =
      .ok ()) :
    ∃ d₁ d₂ d₃ : Disk,
      d₁.write (RunPaths.temporary snapshot ⟨machine.process, machine.tags⟩) text.toUTF8 =
        .ok d₂ ∧
      d₂.rename (RunPaths.temporary snapshot ⟨machine.process, machine.tags⟩) snapshot = .ok d₃ ∧
      ((replace snapshot text : StateM Machine (Except StoreError Unit)).run machine).2.disk =
        d₃ := by
  rcases made : machine.disk.makeDirectories ((Path.parent? snapshot).getD "") with ⟨_ | _, d₁⟩
  · rw [replace, run_bind_eq (Machine.makeDirectories_run made)] at said
    cases said
  rw [replace, run_bind_eq (Machine.makeDirectories_run made)] at said ⊢
  simp only at said ⊢
  rw [run_bind_eq Machine.freshTag_run] at said ⊢
  let machine₁ : Machine := { machine with disk := d₁, tags := machine.tags + 1 }
  cases written : machine₁.disk.write
      (RunPaths.temporary snapshot ⟨machine.process, machine.tags⟩) text.toUTF8 with
  | error e =>
      rw [run_bind_eq (Machine.writeText_run_error written)] at said
      cases said
  | ok d₂ =>
      rw [run_bind_eq (Machine.writeText_run written)] at said ⊢
      simp only at said ⊢
      let machine₂ : Machine := { machine₁ with disk := d₂ }
      cases renamed : machine₂.disk.rename
          (RunPaths.temporary snapshot ⟨machine.process, machine.tags⟩) snapshot with
      | error e =>
          rw [run_bind_eq (Machine.rename_run_error renamed)] at said
          simp only at said
          cases said
      | ok d₃ =>
          rw [run_bind_eq (Machine.rename_run renamed)]
          exact ⟨d₁, d₂, d₃, written, renamed, rfl⟩

namespace Holds

/-- What is written beside the place of a snapshot and then moved there is there. -/
theorem of_replaced {x : String} {d₁ d₂ d₃ : Disk} (nonempty : base ≠ "") (isName : IsName runId)
    (isName' : IsName x) (another : "snapshot.json" ≠ x)
    (written : d₁.write (Path.join (RunPaths.of base runId).directory x) text.toUTF8 = .ok d₂)
    (renamed : d₂.rename (Path.join (RunPaths.of base runId).directory x)
      (RunPaths.of base runId).snapshot = .ok d₃) :
    Holds base runId text d₃ := by
  have below :
      Below base (Path.join (RunPaths.of base runId).directory x) (["runs", runId] ++ [x]) :=
    RunPaths.below_file nonempty isName isName'
  have below' :
      Below base (RunPaths.of base runId).snapshot (["runs", runId] ++ ["snapshot.json"]) :=
    RunPaths.below_file nonempty isName RunPaths.isName_snapshot
  have deep : ["runs", runId] ≠ [] := List.cons_ne_nil _ _
  obtain ⟨_, _, located, -, vacant, rfl⟩ := write_ok written
  obtain ⟨dir, n, es, site, found, place, -⟩ := Site.of_locate nonempty below deep located
  cases place
  simp only [List.append_assoc, site.get?_append] at vacant
  obtain ⟨n₂, es₂, site₂, found₂, there, -⟩ := site.written found vacant
  obtain ⟨_, _, _, _, _, _, t, located₂, located', moved, vacant', -, rfl⟩ := rename_ok renamed
  obtain ⟨-, -, -, -, -, -, admissible⟩ := Site.of_locate nonempty below' deep located'
  cases site₂.locate_ok below located₂
  cases site₂.locate_ok below' located'
  simp only [List.append_assoc, site₂.get?_append] at moved vacant'
  obtain rfl : .file text.toUTF8 = t := Tree.ext (Option.some.inj (there.symm.trans moved))
  exact ⟨admissible, dir, site₂.moved found₂ there another vacant'⟩

/-- A state that was saved is there. -/
theorem of_save (nonempty : base ≠ "")
    (said : ((save base s : StateM Machine (Except StoreError Unit)).run machine).1 = .ok ()) :
    Holds base s.runId s.snapshot
      ((save base s : StateM Machine (Except StoreError Unit)).run machine).2.disk := by
  cases checked : RunId.check s.runId with
  | error e =>
      have refused : paths base s.runId = .error (.invalidRunId e) := by rw [paths, checked]
      rw [save, refused] at said
      simp only at said
      cases said
  | ok _ =>
      have accepted := RunId.fault?_of_check checked
      have isName := RunId.isName accepted
      rw [save, paths_eq accepted] at said ⊢
      simp only at said ⊢
      obtain ⟨d₁, d₂, d₃, written, renamed, same⟩ := replace_ok said
      rw [RunPaths.temporary_eq isName] at written renamed
      rw [same]
      exact of_replaced nonempty isName (RunPaths.isName_temporaryName _)
        (RunPaths.temporaryName_ne _ (by decide)).symm written renamed

/-- The directory of the run is there too. -/
theorem directory (holds : Holds base runId text d) :
    ∃ dir n es, d.Site base dir n ∧ n.get? ["runs", runId] = some (.directory es) ∧
      n.get? (["runs", runId] ++ ["snapshot.json"]) = some (.file text.toUTF8) := by
  obtain ⟨dir, n, site, there⟩ := holds.there
  have there : n.get? (["runs", runId] ++ ["snapshot.json"]) = some (.file text.toUTF8) := there
  obtain ⟨es, found⟩ := Node.exists_directory_of_get?_concat there
  exact ⟨dir, n, es, site, found, there⟩

/-- The snapshot of a run that is held is found. -/
theorem find_eq (holds : Holds base runId text d) (isName : IsName runId) :
    d.find (RunPaths.of base runId).snapshot = .ok (.file text.toUTF8) := by
  obtain ⟨dir, n, es, site, found, there⟩ := holds.directory
  have below :
      Below base (RunPaths.of base runId).snapshot (["runs", runId] ++ ["snapshot.json"]) :=
    RunPaths.below_file site.nonempty isName RunPaths.isName_snapshot
  rw [site.find_eq below holds.admissible found, there]
  rfl

/-- The snapshot of a run that is held is read. -/
theorem read_eq (holds : Holds base runId text d) (isName : IsName runId) :
    d.read (RunPaths.of base runId).snapshot = .ok text.toUTF8 := by
  rw [Disk.read, holds.find_eq isName]

/-- A consistent state that is there is loaded. -/
theorem load_run (holds : Holds base s.runId s.snapshot machine.disk)
    (accepted : RunId.fault? s.runId = none) (consistent : s.violations = []) :
    (load base s.runId : StateM Machine (Except StoreError (Option RunState))).run machine =
      (.ok (some s), machine) := by
  have read := holds.read_eq (RunId.isName accepted)
  rw [load, paths_eq accepted]
  simp only
  rw [run_bind_eq (Machine.readText_run read)]
  simp only [readState, s.parse?_snapshot, consistent, ne_eq, not_true_eq_false, ↓reduceIte]
  rfl

/-- The operating system can look up the directory of a run that is held. -/
theorem admissible_directory (holds : Holds base runId text d) (nonempty : base ≠ "")
    (isName : IsName runId) : Admissible (RunPaths.of base runId).directory :=
  .of_join (RunPaths.below_directory nonempty isName).nonempty RunPaths.isName_snapshot
    holds.admissible

/-- A run whose snapshot is there is listed. -/
theorem list_run (holds : Holds base runId text machine.disk)
    (accepted : RunId.fault? runId = none) :
    ∃ ids, (list base : StateM Machine (Except StoreError (List String))).run machine =
        (.ok ids, machine) ∧ runId ∈ ids := by
  have isName := RunId.isName accepted
  obtain ⟨dir, n, es, site, found, there⟩ := holds.directory
  have nonempty := site.nonempty
  have found : n.get? (["runs"] ++ [runId]) = some (.directory es) := found
  obtain ⟨rs, runs⟩ := Node.exists_directory_of_get?_concat found
  have runs' : n.get? ([] ++ ["runs"]) = some (.directory rs) := runs
  obtain ⟨top, base_found⟩ := Node.exists_directory_of_get?_concat runs'
  have below : Below base (RunPaths.runs base) ([] ++ ["runs"]) := RunPaths.below_runs nonempty
  have admissible : Admissible (RunPaths.runs base) :=
    .of_join below.nonempty isName (holds.admissible_directory nonempty isName)
  have listed : machine.disk.list (RunPaths.runs base) = .ok (rs.map (·.1)) := by
    rw [Disk.list, site.find_eq below admissible base_found, runs']
    rfl
  refine ⟨_, list_run_of_list listed, List.mem_mergeSort.mpr (List.mem_filter.mpr ⟨?_, ?_⟩)⟩
  · rw [Node.get?_append, runs, Option.bind_some, Node.get?_cons] at found
    obtain ⟨child, entry, -⟩ := Option.bind_eq_some_iff.mp found
    exact Entries.mem_map_key.mpr (Option.ne_none_iff_exists'.mpr ⟨child, entry⟩)
  · rw [accepted, isPresent, holds.find_eq isName]
    rfl

/-- The directory of a run whose snapshot is there need not be made. -/
theorem makeDirectories_eq (holds : Holds base runId text d) (isName : IsName runId) :
    d.makeDirectories (RunPaths.of base runId).directory = (.ok (), d) := by
  obtain ⟨dir, n, es, site, found, there⟩ := holds.directory
  have below := RunPaths.below_directory site.nonempty isName
  have admissible := holds.admissible_directory site.nonempty isName
  have origin : d.origin (RunPaths.of base runId).directory = d.origin base := by
    rw [origin, origin, below.rooted]
  have onward : Descends d.root dir ["runs", runId] (dir ++ ["runs", runId]) :=
    .of_get? below.areNames (below.short admissible) ((site.get?_append _).trans found)
  have done : makeWalk false dir ["runs", runId] d = (.ok (), d) := by
    rw [← List.append_nil ["runs", runId], onward.makeWalk]
    rfl
  rw [makeDirectories, admissible.faultless]
  simp only
  rw [origin, below.names, site.arrives.makeWalk, done]

/-- The log of a run leaves its snapshot in place, whether it can be written or not. -/
theorem writeRunLog (holds : Holds base runId text machine.disk)
    (accepted : RunId.fault? runId = none) (entries : List LogEntry) :
    Holds base runId text
      ((writeRunLog base runId entries : StateM Machine (Except LogError Unit)).run
        machine).2.disk := by
  have isName := RunId.isName accepted
  have checked : RunId.check runId = .ok () := by rw [RunId.check, accepted]
  rw [BudgetedRun.writeRunLog, checked]
  simp only
  rw [run_bind_eq (Machine.makeDirectories_run (holds.makeDirectories_eq isName))]
  simp only
  cases written :
    machine.disk.write (RunPaths.of base runId).log (LogEntry.logText entries).toUTF8 with
  | error e =>
      rw [run_bind_eq (Machine.writeText_run_error written)]
      exact holds
  | ok d' =>
      rw [run_bind_eq (Machine.writeText_run written)]
      change Holds base runId text d'
      obtain ⟨dir, n, es, site, found, there⟩ := holds.directory
      have below : Below base (RunPaths.of base runId).log (["runs", runId] ++ ["log.jsonl"]) :=
        RunPaths.below_file site.nonempty isName RunPaths.isName_log
      obtain ⟨_, _, located, -, vacant, rfl⟩ := write_ok written
      cases site.locate_ok below located
      simp only [List.append_assoc, site.get?_append] at vacant
      obtain ⟨n', es', site', found', -, others⟩ := site.written found vacant
      exact ⟨holds.admissible, dir, n', site', (others "snapshot.json" (by decide)).trans there⟩

end Holds

end DirectoryStore

end BudgetedRun
