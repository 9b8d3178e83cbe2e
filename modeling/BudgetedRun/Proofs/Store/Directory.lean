import BudgetedRun.Proofs.File.Host
import BudgetedRun.Proofs.Store.Layout

/-!
# What is done to a store in a directory

Every operation on a store, and on the logs beside it, is worked out on the tree below the base
directory: what it answers and which snapshots are there afterwards. No operation fails if all the
paths on its way can be walked.
-/

namespace BudgetedRun

open Disk BudgetedRun.Path

namespace DirectoryStore

variable {machine : Machine} {base runId snapshot path text : String} {d d₁ d₂ d₃ : Disk}

/-- A run with an accepted id has paths. -/
theorem paths_eq (accepted : RunId.fault? runId = none) (base : String) :
    paths base runId = .ok (.of base runId) := by
  rw [paths, RunId.check, accepted]

/-- A snapshot is replaced if its directory can be made, and the temporary file be written and moved
to its place. -/
theorem replace_run (parent : Path.parent? snapshot = some path)
    (made : machine.disk.makeDirectories path = (.ok (), d₁))
    (written : d₁.write (RunPaths.temporary snapshot ⟨machine.process, machine.tags⟩) text.toUTF8 =
      .ok d₂)
    (renamed : d₂.rename (RunPaths.temporary snapshot ⟨machine.process, machine.tags⟩) snapshot =
      .ok d₃) :
    (replace snapshot text : StateM Machine (Except StoreError Unit)).run machine =
      (.ok (), { machine with disk := d₃, tags := machine.tags + 1 }) := by
  rw [replace, parent, Option.getD_some, run_bind_eq (Machine.makeDirectories_run made)]
  simp only
  rw [run_bind_eq Machine.freshTag_run]
  have writes :=
    @Machine.writeText_run { machine with disk := d₁, tags := machine.tags + 1 } _ _ _ written
  have renames :=
    @Machine.rename_run { machine with disk := d₂, tags := machine.tags + 1 } _ _ _ renamed
  rw [run_bind_eq writes]
  simp only
  rw [run_bind_eq renames]
  rfl

/-- Replacing a snapshot keeps what each of the operations keeps that it consists of. -/
theorem keeps_replace {good : Machine → Prop}
    (makes : Keeps good (FileSystem.makeDirectories ((Path.parent? snapshot).getD "") :
      StateM Machine (Except FileError Unit)) fun _ => True)
    (tags : Keeps good (FileSystem.freshTag : StateM Machine TemporaryTag) fun _ => True)
    (writes : ∀ tag, Keeps good (FileSystem.writeText (RunPaths.temporary snapshot tag) text :
      StateM Machine (Except FileError Unit)) fun _ => True)
    (renames : ∀ tag, Keeps good (FileSystem.rename (RunPaths.temporary snapshot tag) snapshot :
      StateM Machine (Except FileError Unit)) fun _ => True)
    (removes : ∀ tag, Keeps good (FileSystem.remove (RunPaths.temporary snapshot tag) :
      StateM Machine (Except FileError Unit)) fun _ => True) :
    Keeps good (replace snapshot text : StateM Machine (Except StoreError Unit)) fun _ => True := by
  refine makes.bind fun made _ => ?_
  cases made with
  | error e => exact .pure trivial
  | ok _ =>
      refine tags.bind fun tag _ => ?_
      refine (writes tag).bind fun written _ => ?_
      cases written with
      | error e => exact .pure trivial
      | ok _ =>
          refine (renames tag).bind fun renamed _ => ?_
          cases renamed with
          | ok _ => exact .pure trivial
          | error e => exact (removes tag).bind fun _ _ => .pure trivial

variable {dir : List String} {n : Node} {s : RunState}

/-- A snapshot is found if it is there. -/
theorem find_snapshot (site : d.Site base dir n) (isStore : n.IsStore)
    (accepted : RunId.fault? runId = none)
    (admissible : Admissible (RunPaths.of base runId).snapshot) :
    d.find (RunPaths.of base runId).snapshot =
      (n.get? ["runs", runId, "snapshot.json"]).elim (.error .notFound) .ok :=
  site.find_file isStore
    (RunPaths.below_file site.nonempty (RunId.isName accepted) RunPaths.isName_snapshot) admissible

/-- A state that is saved is in the file of its run afterwards, and no other snapshot has
changed. -/
theorem save_run (site : machine.disk.Site base dir n) (isStore : n.IsStore)
    (accepted : RunId.fault? s.runId = none)
    (admissible : Admissible (RunPaths.of base s.runId).snapshot)
    (admissible' : Admissible (RunPaths.temporary (RunPaths.of base s.runId).snapshot
      ⟨machine.process, machine.tags⟩)) :
    ∃ d n', (save base s : StateM Machine (Except StoreError Unit)).run machine =
        (.ok (), { machine with disk := d, tags := machine.tags + 1 }) ∧
      d.Site base dir n' ∧ n'.IsStore ∧ ∀ id, n'.get? ["runs", id, "snapshot.json"] =
        if id = s.runId then some (.file s.snapshot.toUTF8)
        else n.get? ["runs", id, "snapshot.json"] := by
  have isName := RunId.isName accepted
  have nonempty := site.nonempty
  have isTemporary := RunPaths.isName_temporaryName ⟨machine.process, machine.tags⟩
  have different : "snapshot.json" ≠ RunPaths.temporaryName ⟨machine.process, machine.tags⟩ :=
    (RunPaths.temporaryName_ne _ (by decide)).symm
  have parent := @RunPaths.parent?_snapshot base _ isName
  have temporary := @RunPaths.temporary_eq base _ isName ⟨machine.process, machine.tags⟩
  have below := RunPaths.below_file nonempty isName isTemporary
  have below' := RunPaths.below_file nonempty isName RunPaths.isName_snapshot
  have directory : Admissible (RunPaths.of base s.runId).directory :=
    .of_join (RunPaths.below_directory nonempty isName).nonempty RunPaths.isName_snapshot admissible
  generalize RunPaths.temporaryName ⟨machine.process, machine.tags⟩ = x at *
  -- The directory of the run.
  obtain ⟨d₁, made, site₁⟩ := site.makeDirectories_eq isStore isName directory
  obtain ⟨isStore', ⟨rs, runs⟩, same⟩ := isStore.grow_runs
  obtain ⟨isStore₁, ⟨es₁, found₁⟩, same₁⟩ := isStore'.grow_run runs s.runId
  generalize (n.grow [] "runs").grow ["runs"] s.runId = n₁ at site₁ isStore₁ found₁ same₁
  -- The temporary file.
  have vacant₁ := isStore₁.file_ne_directory s.runId x
  have written := site₁.write_eq below (temporary ▸ admissible') found₁ vacant₁ s.snapshot.toUTF8
  have site₂ := site₁.putFile found₁ vacant₁ s.snapshot.toUTF8
  obtain ⟨isStore₂, ⟨es₂, found₂⟩, files₂⟩ := isStore₁.putFile found₁ x s.snapshot.toUTF8
  generalize n₁.modify (Node.put x (.file s.snapshot.toUTF8)) ["runs", s.runId] = n₂
    at site₂ isStore₂ found₂ files₂
  have there : n₂.get? ["runs", s.runId, x] = some (.file s.snapshot.toUTF8) :=
    (files₂ s.runId x).trans (if_pos ⟨rfl, rfl⟩)
  -- The snapshot in its place.
  have renamed := site₂.rename_eq below (temporary ▸ admissible') below' admissible found₂ there
    (isStore₂.file_ne_directory s.runId _)
  have site₃ := site₂.drop found₂ (isStore₂.file_ne_directory s.runId x)
  obtain ⟨isStore₃, ⟨es₃, found₃⟩, files₃⟩ := isStore₂.dropFile site₂.distinct found₂ x
  generalize n₂.modify (Node.drop x) ["runs", s.runId] = n₃ at site₃ isStore₃ found₃ files₃
  have site₄ := site₃.putFile found₃ (isStore₃.file_ne_directory s.runId "snapshot.json")
    s.snapshot.toUTF8
  obtain ⟨isStore₄, -, files₄⟩ := isStore₃.putFile found₃ "snapshot.json" s.snapshot.toUTF8
  refine ⟨_, _, ?_, site₄, isStore₄, ?_⟩
  · rw [save, paths_eq accepted]
    exact replace_run parent made (temporary ▸ written) (temporary ▸ renamed)
  · intro id
    rw [files₄, files₃, files₂, same₁, same]
    simp only [and_true, different, and_false, ↓reduceIte]

/-- A log that is written changes no snapshot. -/
theorem writeRunLog_run (site : machine.disk.Site base dir n) (isStore : n.IsStore)
    (accepted : RunId.fault? runId = none) (admissible : Admissible (RunPaths.of base runId).log)
    (entries : List LogEntry) :
    ∃ d n', (writeRunLog base runId entries : StateM Machine (Except LogError Unit)).run machine =
        (.ok (), { machine with disk := d }) ∧
      d.Site base dir n' ∧ n'.IsStore ∧
      ∀ id, n'.get? ["runs", id, "snapshot.json"] = n.get? ["runs", id, "snapshot.json"] := by
  have isName := RunId.isName accepted
  have nonempty := site.nonempty
  have different : "snapshot.json" ≠ "log.jsonl" := by decide
  have below := RunPaths.below_file nonempty isName RunPaths.isName_log
  have directory : Admissible (RunPaths.of base runId).directory :=
    .of_join (RunPaths.below_directory nonempty isName).nonempty RunPaths.isName_log admissible
  obtain ⟨d₁, made, site₁⟩ := site.makeDirectories_eq isStore isName directory
  obtain ⟨isStore', ⟨rs, runs⟩, same⟩ := isStore.grow_runs
  obtain ⟨isStore₁, ⟨es₁, found₁⟩, same₁⟩ := isStore'.grow_run runs runId
  have vacant := isStore₁.file_ne_directory runId "log.jsonl"
  have written := site₁.write_eq below admissible found₁ vacant (LogEntry.logText entries).toUTF8
  have site₂ := site₁.putFile found₁ vacant (LogEntry.logText entries).toUTF8
  obtain ⟨isStore₂, -, files₂⟩ :=
    isStore₁.putFile found₁ "log.jsonl" (LogEntry.logText entries).toUTF8
  refine ⟨_, _, ?_, site₂, isStore₂, ?_⟩
  · have checked : RunId.check runId = .ok () := by rw [RunId.check, accepted]
    have writes := @Machine.writeText_run { machine with disk := d₁ } _ _ _ written
    rw [writeRunLog, checked]
    simp only
    rw [run_bind_eq (Machine.makeDirectories_run made)]
    simp only
    rw [show (RunPaths.of base runId).log = _ from rfl, run_bind_eq writes]
    rfl
  · intro id
    rw [files₂, same₁, same]
    simp only [different, and_false, ↓reduceIte]

/-- What is loaded depends on the snapshot only, and loading changes nothing. -/
theorem load_run_congr {machine' : Machine}
    (same : machine'.disk.read (RunPaths.of base runId).snapshot =
      machine.disk.read (RunPaths.of base runId).snapshot) :
    (load base runId : StateM Machine (Except StoreError (Option RunState))).run machine' =
      (((load base runId : StateM Machine (Except StoreError (Option RunState))).run machine).1,
        machine') := by
  rw [load, paths]
  cases RunId.check runId with
  | error e => rfl
  | ok _ =>
      have still :=
        @Machine.readText_run_congr machine (RunPaths.of base runId).snapshot machine rfl
      simp only
      rw [run_bind_eq (Machine.readText_run_congr same), run_bind_eq still]
      cases ((FileSystem.readText (RunPaths.of base runId).snapshot :
          StateM Machine (Except FileError String)).run machine).1 with
      | error e => cases e <;> rfl
      | ok text => rfl

/-- What is answered where no snapshot can be read. -/
theorem load_run_unread {e : FileError} (accepted : RunId.fault? runId = none)
    (read : machine.disk.read (RunPaths.of base runId).snapshot = .error e) :
    (load base runId : StateM Machine (Except StoreError (Option RunState))).run machine =
      (if e = .notFound then .ok none
        else .error (.readSnapshot (RunPaths.of base runId).snapshot e), machine) := by
  rw [load, paths_eq accepted]
  simp only
  rw [run_bind_eq (Machine.readText_run_error read)]
  cases e <;> rfl

/-- A run without a snapshot is not there. -/
theorem load_run_none (site : machine.disk.Site base dir n) (isStore : n.IsStore)
    (accepted : RunId.fault? runId = none)
    (admissible : Admissible (RunPaths.of base runId).snapshot)
    (nothing : n.get? ["runs", runId, "snapshot.json"] = none) :
    (load base runId : StateM Machine (Except StoreError (Option RunState))).run machine =
      (.ok none, machine) := by
  have read : machine.disk.read (RunPaths.of base runId).snapshot = .error .notFound := by
    rw [Disk.read, find_snapshot site isStore accepted admissible, nothing]
    rfl
  exact load_run_unread accepted read

/-- The text of a snapshot is read as the state in it. -/
theorem load_run_some (site : machine.disk.Site base dir n) (isStore : n.IsStore)
    (accepted : RunId.fault? runId = none)
    (admissible : Admissible (RunPaths.of base runId).snapshot)
    (there : n.get? ["runs", runId, "snapshot.json"] = some (.file text.toUTF8)) :
    (load base runId : StateM Machine (Except StoreError (Option RunState))).run machine =
      ((readState (RunPaths.of base runId).snapshot runId text).map some, machine) := by
  have read : machine.disk.read (RunPaths.of base runId).snapshot = .ok text.toUTF8 := by
    rw [Disk.read, find_snapshot site isStore accepted admissible, there]
    rfl
  rw [load, paths_eq accepted]
  simp only
  rw [run_bind_eq (Machine.readText_run read)]
  rfl

/-- The run ids among some names that have a snapshot. -/
def withSnapshots (base : String) (d : Disk) (names : List String) : List String :=
  names.filter fun name =>
    (RunId.fault? name).isNone && d.isPresent (RunPaths.of base name).snapshot

/-- Names of which none comes twice are in strictly ascending order once they are sorted. -/
theorem mergeSort_ascending {names : List String} (distinct : names.Nodup) :
    (names.mergeSort (· ≤ ·)).Pairwise (· < ·) := by
  have sorted : (names.mergeSort (· ≤ ·)).Pairwise fun a b => decide (a ≤ b) = true := by
    refine List.pairwise_mergeSort (fun a b c first second => ?_) (fun a b => ?_) names
    · exact decide_eq_true (String.le_trans (of_decide_eq_true first) (of_decide_eq_true second))
    · rw [Bool.or_eq_true, decide_eq_true_eq, decide_eq_true_eq]
      exact String.le_total a b
  have apart : (names.mergeSort (· ≤ ·)).Nodup := (List.mergeSort_perm _ _).nodup_iff.mpr distinct
  refine (sorted.and apart).imp fun ⟨below, another⟩ => ?_
  exact Std.not_le.mp fun above => another (String.le_antisymm (of_decide_eq_true below) above)

/-- The runs with a snapshot in a directory that is found are listed in ascending order. -/
theorem withSnapshots_ascending {es : List (String × Node)}
    (found : d.find path = .ok (.directory es)) :
    ((withSnapshots base d (es.map (·.1))).mergeSort (· ≤ ·)).Pairwise (· < ·) :=
  mergeSort_ascending ((nodup_of_find found).filter _)

/-- The names that are listed, if they are looked at one by one. -/
theorem withSnapshot_run (base : String) (names : List String) (machine : Machine) :
    (withSnapshot base names : StateM Machine (List String)).run machine =
      (withSnapshots base machine.disk names, machine) := by
  induction names with
  | nil => rfl
  | cons name rest ih =>
      have looks : (FileSystem.isPresent (RunPaths.of base name).snapshot : StateM Machine Bool).run
          machine = (machine.disk.isPresent (RunPaths.of base name).snapshot, machine) := rfl
      rw [withSnapshot, withSnapshots, List.filter_cons]
      cases accepted : (RunId.fault? name).isNone with
      | false =>
          simp only [Bool.false_and, Bool.false_eq_true, ↓reduceIte]
          exact ih
      | true =>
          simp only [Bool.true_and, ↓reduceIte]
          rw [run_bind_eq looks, run_bind_eq ih]
          cases machine.disk.isPresent (RunPaths.of base name).snapshot <;> rfl

/-- To list a directory leaves the machine as it was. -/
theorem list_files_run (path : String) (machine : Machine) :
    (FileSystem.list path : StateM Machine (Except FileError (List String))).run machine =
      (machine.disk.list path, machine) := rfl

/-- What is answered if the directory of the runs can be listed. -/
theorem list_run_of_list {names : List String}
    (listed : machine.disk.list (RunPaths.runs base) = .ok names) :
    (list base : StateM Machine (Except StoreError (List String))).run machine =
      (.ok ((withSnapshots base machine.disk names).mergeSort (· ≤ ·)), machine) := by
  rw [list, run_bind_eq (list_files_run _ _), listed]
  simp only
  rw [run_bind_eq (withSnapshot_run base _ machine)]
  rfl

/-- What is answered if it cannot. -/
theorem list_run_unread {e : FileError}
    (failed : machine.disk.list (RunPaths.runs base) = .error e) :
    (list base : StateM Machine (Except StoreError (List String))).run machine =
      (if e = .notFound then .ok [] else .error (.readDirectory (RunPaths.runs base) e),
        machine) := by
  rw [list, run_bind_eq (list_files_run _ _), failed]
  cases e <;> rfl

/-- To list the runs leaves the machine as it was. -/
theorem list_run_snd (base : String) (machine : Machine) :
    ((list base : StateM Machine (Except StoreError (List String))).run machine).2 = machine := by
  cases listed : machine.disk.list (RunPaths.runs base) with
  | error e => rw [list_run_unread listed]
  | ok names => rw [list_run_of_list listed]

/-- Where snapshots can be read, the names that are kept in the list are those of the snapshots. -/
theorem isPresent_snapshot_iff (site : d.Site base dir n) (isStore : n.IsStore)
    (readable : ∀ id m, n.get? ["runs", id, "snapshot.json"] = some m →
      RunId.fault? id = none ∧ Admissible (RunPaths.of base id).snapshot) :
    ((RunId.fault? runId).isNone && d.isPresent (RunPaths.of base runId).snapshot) = true ↔
      n.get? ["runs", runId, "snapshot.json"] ≠ none := by
  rw [Bool.and_eq_true, Option.isNone_iff_eq_none, isPresent]
  constructor
  · rintro ⟨accepted, present⟩
    have below : Below base (RunPaths.of base runId).snapshot
        (["runs", runId] ++ ["snapshot.json"]) :=
      RunPaths.below_file site.nonempty (RunId.isName accepted) RunPaths.isName_snapshot
    split at present
    · rename_i m found
      have there := site.get?_of_find below found
      rw [List.cons_append, List.singleton_append] at there
      exact there ▸ Option.some_ne_none m
    · cases present
  · intro present
    obtain ⟨m, there⟩ := Option.ne_none_iff_exists'.mp present
    obtain ⟨accepted, admissible⟩ := readable runId m there
    rw [find_snapshot site isStore accepted admissible, there]
    exact ⟨accepted, rfl⟩

/-- The list of runs is that of the snapshots. -/
theorem list_run (site : machine.disk.Site base dir n) (isStore : n.IsStore)
    (admissible : Admissible (RunPaths.runs base))
    (readable : ∀ id m, n.get? ["runs", id, "snapshot.json"] = some m →
      RunId.fault? id = none ∧ Admissible (RunPaths.of base id).snapshot) :
    ∃ ids, (list base : StateM Machine (Except StoreError (List String))).run machine =
        (.ok ids, machine) ∧ ids.Pairwise (· < ·) ∧
      ∀ id, id ∈ ids ↔ n.get? ["runs", id, "snapshot.json"] ≠ none := by
  have below := RunPaths.below_runs site.nonempty
  obtain ⟨es, same⟩ := Node.exists_directory isStore.base
  have top : n.get? [] = some (.directory es) := congrArg some same
  have found : machine.disk.find (RunPaths.runs base) = _ := site.find_eq below admissible top
  rw [List.nil_append] at found
  cases runs : n.get? ["runs"] with
  | none =>
      have nothing (id : String) : n.get? ["runs", id, "snapshot.json"] = none :=
        Node.get?_append_of_none runs [id, "snapshot.json"]
      have missing : machine.disk.list (RunPaths.runs base) = .error .notFound := by
        rw [Disk.list, found, runs]
        rfl
      refine ⟨[], list_run_unread missing, List.Pairwise.nil, fun id => ?_⟩
      simp only [List.not_mem_nil, nothing, ne_eq, not_true_eq_false]
  | some m =>
      obtain ⟨rs, rfl⟩ := Node.exists_directory (isStore.runs m runs)
      have names : machine.disk.list (RunPaths.runs base) = .ok (rs.map (·.1)) := by
        rw [Disk.list, found, runs]
        rfl
      refine ⟨_, list_run_of_list names, ?_, fun id => ?_⟩
      · rw [runs] at found
        exact withSnapshots_ascending found
      rw [List.mem_mergeSort, withSnapshots, List.mem_filter,
        isPresent_snapshot_iff site isStore readable, Entries.mem_map_key]
      refine ⟨And.right, fun present => ⟨fun missing => ?_, present⟩⟩
      have missing : n.get? (["runs"] ++ [id]) = none := by
        rw [Node.get?_append, runs, Option.bind_some, Node.get?_cons, Node.entry?, missing]
        rfl
      exact present (Node.get?_append_of_none missing ["snapshot.json"])

end DirectoryStore

end BudgetedRun
