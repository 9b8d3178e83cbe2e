import BudgetedRun.Proofs.File.MadeDirectories
import BudgetedRun.Proofs.Store.Listing

/-!
# Failed writes

A state that cannot be saved leaves directories behind that were made on the way to its temporary
file, and nothing else that a reader looks at (`DirectoryStore.replace_error`). All that is loaded
or listed afterwards is what was loaded or listed before
(`DirectoryStore.failed_save_keeps_answers`), but for one thing: the file system says that a name is
too long only where there is a directory to look for it, so such a name can first be missing and
then be an error.
-/

namespace BudgetedRun

open Disk BudgetedRun.Path

namespace RunPaths

variable {base runId x : String} {d : Disk}

/-- A file of a run is right in the directory of the run. -/
theorem below_own (isName : IsName runId) (isName' : IsName x) :
    Below (of base runId).directory (Path.join (of base runId).directory x) [x] :=
  .join (Below.join (runs_ne_empty base) isName).nonempty isName'

/-- The path of the directory of runs has no `..` if that of the base has none. -/
theorem plain_runs (plain : ".." ∉ names base) : ".." ∉ names (runs base) := by
  rw [names_runs, List.mem_append, not_or]
  exact ⟨plain, by decide⟩

end RunPaths

namespace DirectoryStore

variable {machine machine' : Machine} {base runId snapshot text x : String} {d d' : Disk}
  {e : StoreError} {s : RunState} {es : List (String × Node)}

section writer

/-- What was done when a snapshot could not be replaced: directories were made, and perhaps the
temporary file was written, and removed again if it could be. -/
theorem replace_error
    (failed : ((replace snapshot text : StateM Machine (Except StoreError Unit)).run machine).1 =
      .error e) :
    let temporary := RunPaths.temporary snapshot ⟨machine.process, machine.tags⟩
    let made := (machine.disk.makeDirectories ((Path.parent? snapshot).getD "")).2
    let left :=
      ((replace snapshot text : StateM Machine (Except StoreError Unit)).run machine).2.disk
    left = made ∨ ∃ written, made.write temporary text.toUTF8 = .ok written ∧
      (left = written ∨ written.remove temporary = .ok left) := by
  intro temporary made left
  rcases makes : machine.disk.makeDirectories ((Path.parent? snapshot).getD "") with ⟨_ | _, d₁⟩
  · refine .inl ?_
    simp only [left, made]
    rw [replace, run_bind_eq (Machine.makeDirectories_run makes), makes]
    rfl
  have same : made = d₁ := congrArg Prod.snd makes
  simp only [left]
  rw [replace, run_bind_eq (Machine.makeDirectories_run makes)] at failed ⊢
  simp only at failed ⊢
  rw [run_bind_eq Machine.freshTag_run] at failed ⊢
  let machine₁ : Machine := { machine with disk := d₁, tags := machine.tags + 1 }
  rw [same]
  cases writes : machine₁.disk.write temporary text.toUTF8 with
  | error e =>
      rw [run_bind_eq (Machine.writeText_run_error writes)]
      exact .inl rfl
  | ok d₂ =>
      refine .inr ⟨d₂, rfl, ?_⟩
      rw [run_bind_eq (Machine.writeText_run writes)] at failed ⊢
      simp only at failed ⊢
      let machine₂ : Machine := { machine₁ with disk := d₂ }
      cases renames : machine₂.disk.rename temporary snapshot with
      | ok d₃ =>
          rw [run_bind_eq (Machine.rename_run renames)] at failed
          cases failed
      | error e =>
          rw [run_bind_eq (Machine.rename_run_error renames)]
          simp only
          cases removes : machine₂.disk.remove temporary with
          | error e =>
              rw [run_bind_eq (Machine.remove_run_error removes)]
              exact .inl rfl
          | ok d₃ =>
              rw [run_bind_eq (Machine.remove_run removes)]
              exact .inr rfl

/-- A state that cannot be saved leaves nothing but its temporary file and directories on the way to
it. -/
theorem spares_of_failed_save (plain : ".." ∉ names base) (accepted : RunId.fault? s.runId = none)
    (failed : ((save base s : StateM Machine (Except StoreError Unit)).run machine).1 = .error e) :
    let left := ((save base s : StateM Machine (Except StoreError Unit)).run machine).2.disk
    machine.disk.Spares (Path.join (RunPaths.of base s.runId).directory
      (RunPaths.temporaryName ⟨machine.process, machine.tags⟩)) left := by
  intro left
  have isName := RunId.isName accepted
  have isTemporary := RunPaths.isName_temporaryName ⟨machine.process, machine.tags⟩
  have below := @RunPaths.below_own base _ _ isName isTemporary
  have plainRun : ".." ∉ names (RunPaths.of base s.runId).directory :=
    (Below.join (RunPaths.runs_ne_empty base) isName).plain (RunPaths.plain_runs plain)
  have itself := below.refl
  simp only [left]
  rw [save, paths_eq accepted] at failed ⊢
  simp only at failed ⊢
  have done := replace_error failed
  rw [RunPaths.parent?_snapshot isName, Option.getD_some, RunPaths.temporary_eq isName] at done
  have made := Spares.makeDirectories_above plainRun below machine.disk
  simp only at done
  rcases done with same | ⟨d, written, rest⟩
  · rw [same]
    exact made
  have made' := made.trans (.write (below.plain plainRun) itself written)
  rcases rest with same | removed
  · rw [same]
    exact made'
  · exact made'.trans (.remove (below.plain plainRun) itself removed)

end writer

section readers

variable (isName : IsName runId) (isName' : IsName x) (another : x ≠ "snapshot.json")
  (plain : ".." ∉ names base)

/-- The only names on the way to a snapshot that can be too long are its run id and those of the
base path. -/
theorem overlong_of_snapshot (accepted : RunId.fault? runId = none)
    (long : Overlong (names (RunPaths.of base runId).snapshot)) :
    Overlong (runId :: names base) := by
  have below : Below (RunPaths.runs base) (RunPaths.of base runId).snapshot _ :=
    RunPaths.below_run (RunId.isName accepted) RunPaths.isName_snapshot
  obtain ⟨name, member, exceeds⟩ := long
  rw [below.names, RunPaths.names_runs, List.append_assoc] at member
  refine ⟨name, ?_, exceeds⟩
  rcases List.mem_append.mp member with inBase | rest
  · exact List.mem_cons_of_mem _ inBase
  · simp only [List.cons_append, List.nil_append, List.mem_cons, List.not_mem_nil, or_false] at rest
    rcases rest with rfl | rfl | rfl
    · exact absurd exceeds (by decide)
    · exact List.mem_cons_self
    · exact absurd exceeds (by decide)

/-- Only the base directory can make the path of the directory of runs too long. -/
theorem overlong_of_runs (long : Overlong (names (RunPaths.runs base))) :
    Overlong (names base) := by
  obtain ⟨name, member, exceeds⟩ := long
  rw [RunPaths.names_runs] at member
  rcases List.mem_append.mp member with inBase | rest
  · exact ⟨name, inBase, exceeds⟩
  · cases List.mem_singleton.mp rest
    exact absurd exceeds (by decide)

include plain in
/-- A snapshot that is present is in the directory of the runs. -/
theorem exists_run_of_isPresent {id : String} (accepted : RunId.fault? id = none)
    (present : d.isPresent (RunPaths.of base id).snapshot = true) :
    ∃ es m, d.root.get? (d.resolve (RunPaths.runs base)) = some (.directory es) ∧
      Entries.find? id es = some m := by
  have below : Below (RunPaths.runs base) (RunPaths.of base id).snapshot _ :=
    RunPaths.below_run (RunId.isName accepted) RunPaths.isName_snapshot
  obtain ⟨m, there⟩ := exists_of_isPresent (below.plain (RunPaths.plain_runs plain)) present
  rw [below.resolve_eq, Node.get?_append] at there
  obtain ⟨runs, found, there⟩ := Option.bind_eq_some_iff.mp there
  rw [Node.get?_cons] at there
  obtain ⟨run, entry, -⟩ := Option.bind_eq_some_iff.mp there
  cases runs with
  | file content => cases entry
  | directory es => exact ⟨es, run, found, entry⟩

variable
  (spares : machine.disk.Spares (Path.join (RunPaths.of base runId).directory x) machine'.disk)

include isName isName' another plain spares

/-- Beside a temporary file, snapshots are what they were. -/
theorem read_snapshot_aside {id : String} (accepted : RunId.fault? id = none) :
    (machine'.disk.read (RunPaths.of base id).snapshot =
        machine.disk.read (RunPaths.of base id).snapshot ∨
      machine.disk.read (RunPaths.of base id).snapshot = .error .notFound ∧
        machine'.disk.read (RunPaths.of base id).snapshot = .error .nameTooLong ∧
        Overlong (id :: names base)) ∧
      machine'.disk.isPresent (RunPaths.of base id).snapshot =
        machine.disk.isPresent (RunPaths.of base id).snapshot := by
  have own : Below (RunPaths.runs base) (Path.join (RunPaths.of base runId).directory x) _ :=
    RunPaths.below_run isName isName'
  have below : Below (RunPaths.runs base) (RunPaths.of base id).snapshot _ :=
    RunPaths.below_run (RunId.isName accepted) RunPaths.isName_snapshot
  have apart : machine.disk.resolve (Path.join (RunPaths.of base runId).directory x) ≠
      machine.disk.resolve (RunPaths.of base id).snapshot := by
    rw [own.resolve_eq, below.resolve_eq]
    intro same
    exact another (List.cons.inj (List.cons.inj (List.append_cancel_left same)).2).1
  have level : (machine.disk.resolve (Path.join (RunPaths.of base runId).directory x)).length =
      (machine.disk.resolve (RunPaths.of base id).snapshot).length := by
    rw [own.resolve_eq, below.resolve_eq, List.length_append, List.length_append]
    rfl
  obtain ⟨read, present⟩ := spares.read_aside (below.plain (RunPaths.plain_runs plain))
    (fun within => apart (within.eq_of_length level))
    fun within => apart (within.eq_of_length level.symm).symm
  exact ⟨read.imp_right (And.imp_right (And.imp_right (overlong_of_snapshot accepted))), present⟩

/-- Beside a temporary file, all runs load as before, but for one whose path has a name that is too
long. -/
theorem load_aside (id : String) :
    loaded base id machine' = loaded base id machine ∨
      Overlong (id :: names base) ∧ loaded base id machine = .ok none ∧
        loaded base id machine' =
          .error (.readSnapshot (RunPaths.of base id).snapshot .nameTooLong) := by
  rw [loaded, loaded]
  cases checked : RunId.check id with
  | error e =>
      have refused : paths base id = .error (.invalidRunId e) := by rw [paths, checked]
      rw [load, refused]
      exact .inl rfl
  | ok _ =>
      have accepted := RunId.fault?_of_check checked
      obtain ⟨same | ⟨missing, failed, long⟩, -⟩ :=
        read_snapshot_aside isName isName' another plain spares accepted
      · rw [load_run_congr same]
        exact .inl rfl
      · rw [load_run_unread accepted missing, load_run_unread accepted failed]
        exact .inr ⟨long, rfl, rfl⟩

/-- Beside a temporary file, the same runs are listed as before, unless a name of the base path is
too long. -/
theorem list_aside :
    listed base machine' = listed base machine ∨
      Overlong (names base) ∧ listed base machine = .ok [] ∧
        listed base machine' = .error (.readDirectory (RunPaths.runs base) .nameTooLong) := by
  rw [listed, listed]
  have plainRuns := RunPaths.plain_runs plain
  have own := @RunPaths.below_run base _ _ isName isName'
  have fresh (place : List String) (within : place <+: machine.disk.resolve (RunPaths.runs base)) :
      SameOrMade machine.disk machine'.disk place := by
    refine (spares.aside place fun below => ?_).imp_right fun made => ⟨made.1, made.2.1⟩
    have longer := (below.trans within).length_le
    rw [own.resolve_eq, List.length_append, List.length_cons, List.length_cons] at longer
    omega
  have kept (id : String) :
      (RunId.fault? id = none ∧ machine'.disk.isPresent (RunPaths.of base id).snapshot = true) ↔
        RunId.fault? id = none ∧ machine.disk.isPresent (RunPaths.of base id).snapshot = true :=
    and_congr_right fun accepted => by
      rw [(read_snapshot_aside isName isName' another plain spares accepted).2]
  rcases find_made spares.current plainRuns fresh with same | ⟨lost, missing, found⟩
  · rcases list_congr same with ⟨e, failed, failed'⟩ | ⟨es, es', found, found'⟩
    · rw [list_run_unread failed, list_run_unread failed']
      exact .inl rfl
    · -- Both list the runs that have a snapshot, in order.
      have listed : machine.disk.list (RunPaths.runs base) = .ok (es.map (·.1)) := by
        rw [Disk.list, found]
      have listed' : machine'.disk.list (RunPaths.runs base) = .ok (es'.map (·.1)) := by
        rw [Disk.list, found']
      have equal : (withSnapshots base machine'.disk (es'.map (·.1))).mergeSort (· ≤ ·) =
          (withSnapshots base machine.disk (es.map (·.1))).mergeSort (· ≤ ·) := by
        refine (withSnapshots_ascending found').eq_of_mem_iff (withSnapshots_ascending found)
          fun id => ?_
        rw [List.mem_mergeSort, List.mem_mergeSort, mem_withSnapshots found',
          mem_withSnapshots found]
        exact kept id
      rw [list_run_of_list listed, list_run_of_list listed', equal]
      exact .inl rfl
  · have unlisted : machine.disk.list (RunPaths.runs base) = .error .notFound := by
      rw [Disk.list, lost]
    rw [list_run_unread unlisted]
    rcases found with ⟨lost', long⟩ | ⟨es', found'⟩
    · have failed : machine'.disk.list (RunPaths.runs base) = .error .nameTooLong := by
        rw [Disk.list, lost']
      rw [list_run_unread failed]
      exact .inr ⟨overlong_of_runs long, rfl, rfl⟩
    · -- What was made there has no runs with a snapshot in it.
      have listed : machine'.disk.list (RunPaths.runs base) = .ok (es'.map (·.1)) := by
        rw [Disk.list, found']
      have nothing : withSnapshots base machine'.disk (es'.map (·.1)) = [] := by
        refine List.eq_nil_iff_forall_not_mem.mpr fun id member => ?_
        obtain ⟨accepted, present⟩ := (kept id).mp ((mem_withSnapshots found' id).mp member)
        obtain ⟨es, m, there, -⟩ := exists_run_of_isPresent plain accepted present
        rw [Node.seen?, there] at missing
        cases missing
      rw [list_run_of_list listed, nothing, List.mergeSort_nil]
      exact .inl rfl

end readers

/-- After a state could not be saved, every run loads and the runs are listed as before. Only what
was not found, and has a name on its way that is too long, can now fail for that name. The base path
must not contain `..`. -/
theorem failed_save_keeps_answers (plain : ".." ∉ names base)
    (failed : ((save base s : StateM Machine (Except StoreError Unit)).run machine).1 = .error e) :
    let after := ((save base s : StateM Machine (Except StoreError Unit)).run machine).2
    (∀ id, loaded base id after = loaded base id machine ∨
      Overlong (id :: names base) ∧ loaded base id machine = .ok none ∧
        loaded base id after =
          .error (.readSnapshot (RunPaths.of base id).snapshot .nameTooLong)) ∧
    (listed base after = listed base machine ∨
      Overlong (names base) ∧ listed base machine = .ok [] ∧
        listed base after = .error (.readDirectory (RunPaths.runs base) .nameTooLong)) := by
  intro after
  cases checked : RunId.check s.runId with
  | error refusal =>
      have refused : paths base s.runId = .error (.invalidRunId refusal) := by rw [paths, checked]
      have unchanged : after = machine := by
        simp only [after]
        rw [save, refused]
        rfl
      rw [unchanged]
      exact ⟨fun id => .inl rfl, .inl rfl⟩
  | ok _ =>
      have accepted := RunId.fault?_of_check checked
      have isName := RunId.isName accepted
      have isTemporary := RunPaths.isName_temporaryName ⟨machine.process, machine.tags⟩
      have another : RunPaths.temporaryName ⟨machine.process, machine.tags⟩ ≠ "snapshot.json" :=
        RunPaths.temporaryName_ne _ (by decide)
      have spares := spares_of_failed_save plain accepted failed
      exact ⟨load_aside isName isTemporary another plain spares,
        list_aside isName isTemporary another plain spares⟩

/-- A store with one run whose snapshot cannot be replaced, and another run. -/
def obstructed : Tree :=
  .directory [("out", .directory [("runs", .directory
    [("a", .directory [("snapshot.json", .directory [])]),
      ("b", .directory [("snapshot.json",
        .file (RunState.start "b" "plan" World.dawn).snapshot.toUTF8)])])])]

/-- The other run can be loaded. -/
theorem loaded_obstructed :
    loaded "out" "b" (holding obstructed) = .ok (some (RunState.start "b" "plan" World.dawn)) :=
  loaded_holding rfl rfl rfl (by decide +kernel) (by decide +kernel)

/-- Both runs are listed. -/
theorem listed_obstructed : listed "out" (holding obstructed) = .ok ["a", "b"] := by
  have names : (holding obstructed).disk.list (RunPaths.runs "out") = .ok ["a", "b"] := by
    decide +kernel
  have all : withSnapshots "out" (holding obstructed).disk ["a", "b"] = ["a", "b"] := by
    decide +kernel
  rw [listed, list_run_of_list names, all, List.mergeSort_of_pairwise (by decide)]

/-- A snapshot that cannot be replaced does not keep the others from being loaded and listed. -/
theorem failed_save_keeps_others :
    let saved := (save "out" (RunState.start "a" "plan" World.dawn) :
      StateM Machine (Except StoreError Unit)).run (holding obstructed)
    saved.1 = .error (.replaceSnapshot "out/runs/a/snapshot.json" .isADirectory) ∧
      loaded "out" "b" saved.2 = .ok (some (RunState.start "b" "plan" World.dawn)) ∧
      listed "out" saved.2 = .ok ["a", "b"] := by
  have failed : ((save "out" (RunState.start "a" "plan" World.dawn) :
      StateM Machine (Except StoreError Unit)).run (holding obstructed)).1 =
        .error (.replaceSnapshot "out/runs/a/snapshot.json" .isADirectory) := by
    decide +kernel
  obtain ⟨loads, lists⟩ :=
    failed_save_keeps_answers (by decide +kernel) failed
  refine ⟨failed, ?_, ?_⟩
  · rcases loads "b" with same | ⟨-, missing, -⟩
    · exact same.trans loaded_obstructed
    · cases loaded_obstructed.symm.trans missing
  · rcases lists with same | ⟨-, missing, -⟩
    · exact same.trans listed_obstructed
    · cases listed_obstructed.symm.trans missing

section overlong

variable {dir : List String} {n : Node}

/-- Whether a run id that is too long is missing or an error depends on whether there is a directory
of runs to look for it. -/
theorem read_overlong (site : d.Site base dir n) (accepted : RunId.fault? runId = none)
    (long : runId.utf8ByteSize > maxNameSize)
    (faultless : pathFault? (RunPaths.of base runId).snapshot = none) :
    (n.get? ["runs"] = none → d.read (RunPaths.of base runId).snapshot = .error .notFound) ∧
      ∀ es, n.get? ["runs"] = some (.directory es) →
        d.read (RunPaths.of base runId).snapshot = .error .nameTooLong := by
  have isName := RunId.isName accepted
  have below : Below base (RunPaths.of base runId).snapshot _ :=
    RunPaths.below_file site.nonempty isName RunPaths.isName_snapshot
  have short : ¬"runs".utf8ByteSize > maxNameSize := by decide
  have walked := site.locate_eq_walk below faultless (List.cons_ne_nil _ _)
  rw [walk, if_neg RunPaths.isName_runs.notCurrent, if_neg RunPaths.isName_runs.notParent,
    if_neg short, if_neg (List.cons_ne_nil _ _), site.get?_append] at walked
  constructor
  · intro missing
    rw [missing] at walked
    rw [Disk.read, find_of_locate_error walked]
  · intro es runs
    rw [runs] at walked
    simp only at walked
    rw [walk, if_neg isName.notCurrent, if_neg isName.notParent, if_pos long] at walked
    rw [Disk.read, find_of_locate_error walked]

/-- In a base directory without runs, a run id that is too long is missing before its state is
saved. To save it, the directory of the runs is made, and from then on the id is an error. -/
theorem overlong_save (own : s.runId = runId) (site : machine.disk.Site base dir n)
    (found : n.get? [] = some (.directory es)) (fresh : n.get? ["runs"] = none)
    (accepted : RunId.fault? runId = none) (long : runId.utf8ByteSize > maxNameSize)
    (faultless : pathFault? (RunPaths.of base runId).snapshot = none) :
    let saved := (save base s : StateM Machine (Except StoreError Unit)).run machine
    saved.1 = .error (.createDirectory (RunPaths.of base runId).directory .nameTooLong) ∧
      loaded base runId machine = .ok none ∧
      loaded base runId saved.2 =
        .error (.readSnapshot (RunPaths.of base runId).snapshot .nameTooLong) := by
  intro saved
  have isName := RunId.isName accepted
  have below := RunPaths.below_directory site.nonempty isName
  have faultless' : pathFault? (RunPaths.of base runId).directory = none :=
    Admissible.pathFault?_of_join below.nonempty RunPaths.isName_snapshot faultless
  have origin : machine.disk.origin (RunPaths.of base runId).directory =
      machine.disk.origin base := by
    rw [origin, origin, below.rooted]
  have top : n.get? ([] ++ ["runs"]) = none := fresh
  have vacant (content : ByteArray) : n.get? ([] ++ ["runs"]) ≠ some (.file content) :=
    fun there => Option.some_ne_none _ (there.symm.trans top)
  obtain ⟨missed, d, grows, site'⟩ :=
    site.makeWalk_cons RunPaths.isName_runs (by decide) found vacant false [runId]
  have made : machine.disk.makeDirectories (RunPaths.of base runId).directory =
      (.error .nameTooLong, d) := by
    rw [List.append_nil] at grows
    rw [makeDirectories, faultless']
    simp only
    rw [origin, below.names, site.arrives.makeWalk, grows, makeWalk, if_neg isName.notCurrent,
      if_neg isName.notParent, if_pos long]
  have runs : (n.grow [] "runs").get? ["runs"] = some (.directory []) := by
    have new := @Node.get?_grow n "runs" [] es found [] rfl "runs"
    rw [top] at new
    exact new
  have ran : saved = (.error (.createDirectory (RunPaths.of base runId).directory .nameTooLong),
      { machine with disk := d }) := by
    simp only [saved]
    rw [save, own, paths_eq accepted]
    simp only
    rw [replace, RunPaths.parent?_snapshot isName, Option.getD_some,
      run_bind_eq (Machine.makeDirectories_run made)]
    rfl
  have before := (read_overlong site accepted long faultless).1 fresh
  have after := (@read_overlong base runId d dir _ site' accepted long faultless).2 _ runs
  rw [ran, loaded, loaded, load_run_unread accepted before,
    @load_run_unread { machine with disk := d } base runId _ accepted after]
  exact ⟨rfl, rfl, rfl⟩

/-- A run id that no directory can have. -/
def longId : String := String.ofList (List.replicate 256 'n')

theorem toList_longId : longId.toList = List.replicate 256 'n' := String.toList_ofList

theorem utf8ByteSize_longId : longId.utf8ByteSize = 256 := by decide +kernel

theorem longId_accepted : RunId.fault? longId = none := by
  have other {id : String} (short : id.utf8ByteSize < 256) : longId ≠ id := fun same =>
    Nat.ne_of_lt short (same ▸ utf8ByteSize_longId)
  have plain : longId.toList.all RunId.isPlain = true := by
    rw [toList_longId]
    decide +kernel
  rw [RunId.fault?, if_neg (other (by decide)), if_neg, if_pos plain]
  exact not_or.mpr ⟨other (by decide), other (by decide)⟩

theorem longId_faultless : pathFault? (RunPaths.of "out" longId).snapshot = none := by
  have isName := RunId.isName longId_accepted
  have runs : (RunPaths.runs "out").toList = "out/runs".toList := by decide +kernel
  have slash : "/".toList = ['/'] := by decide
  have path : (RunPaths.of "out" longId).snapshot =
      "out/runs" ++ "/" ++ longId ++ "/" ++ "snapshot.json" := by
    apply String.toList_inj.mp
    rw [RunPaths.of, toList_join_join RunPaths.isName_snapshot isName (RunPaths.runs_ne_empty _)]
    rw [RunPaths.runs, toList_join_join isName RunPaths.isName_runs (by decide), ← RunPaths.runs,
      runs]
    simp only [String.toList_append, slash, List.append_assoc, List.singleton_append]
  have clean : '\x00' ∉ (RunPaths.of "out" longId).snapshot.toList := by
    rw [path]
    simp only [String.toList_append, toList_longId, List.mem_append, List.mem_replicate]
    decide +kernel
  have size : (RunPaths.of "out" longId).snapshot.utf8ByteSize = 279 := by
    rw [path]
    simp only [String.utf8ByteSize_append, utf8ByteSize_longId]
    decide +kernel
  rw [pathFault?, if_neg clean, if_neg (by rw [size]; decide)]

/-- A failed save can turn a missing run into an error. -/
theorem failed_save_changes_answer :
    let machine := holding (.directory [("out", .directory [])])
    let saved := (save "out" (RunState.start longId "plan" World.dawn) :
      StateM Machine (Except StoreError Unit)).run machine
    ".." ∉ names "out" ∧
      saved.1 = .error (.createDirectory (RunPaths.of "out" longId).directory .nameTooLong) ∧
      ¬((∀ id, loaded "out" id saved.2 = loaded "out" id machine) ∧
        listed "out" saved.2 = listed "out" machine) := by
  have names : names "out" = ["out"] := by decide +kernel
  have origin : (holding (.directory [("out", .directory [])])).disk.origin "out" = [] := by
    decide +kernel
  have site :
      (holding (.directory [("out", .directory [])])).disk.Site "out" ["out"] (.directory []) := by
    refine ⟨by decide, ?_, rfl⟩
    rw [names, origin]
    exact .name (by decide) (by decide) (by decide) rfl .done
  have long : longId.utf8ByteSize > maxNameSize := by
    rw [utf8ByteSize_longId]
    decide
  obtain ⟨failed, before, after⟩ :=
    @overlong_save (holding (.directory [("out", .directory [])])) "out" longId
    (RunState.start longId "plan" World.dawn) [] ["out"] _ rfl site rfl rfl longId_accepted long
    longId_faultless
  refine ⟨names ▸ by decide, failed, fun claim => ?_⟩
  have same := claim.1 longId
  rw [before, after] at same
  cases same

end overlong

end DirectoryStore

end BudgetedRun
