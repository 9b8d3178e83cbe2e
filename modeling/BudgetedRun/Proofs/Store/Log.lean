import BudgetedRun.Proofs.Run.Log
import BudgetedRun.Proofs.Store.Listing

/-!
# Logs in files

A log that was written, as the store said, is what the log file of the run holds, whatever was there
before (`DirectoryStore.writeRunLog_ok`). Its lines are read back as the entries, one by one
(`DirectoryStore.written_log_reads_back`).
-/

namespace BudgetedRun

open Disk Text BudgetedRun.Path

/-- What is written to a file is read from it. -/
theorem Disk.read_of_write {d d' : Disk} {base path x : String} {ms : List String}
    {content : ByteArray} (nonempty : base ≠ "") (below : Below base path (ms ++ [x]))
    (deep : ms ≠ []) (written : d.write path content = .ok d') : d'.read path = .ok content := by
  obtain ⟨_, _, located, -, vacant, rfl⟩ := write_ok written
  obtain ⟨dir, n, es, site, found, place, admissible⟩ :=
    Site.of_locate nonempty below deep located
  cases place
  simp only [List.append_assoc, site.get?_append] at vacant
  obtain ⟨n', es', site', found', there, -⟩ := site.written found vacant
  rw [Disk.read, site'.find_eq below admissible found', there]
  rfl

namespace DirectoryStore

variable {machine : Machine} {base runId : String} {entries : List LogEntry}

/-- A log that was written is that of an accepted run, and it is in the file of its log. -/
theorem writeRunLog_ok
    (said : ((writeRunLog base runId entries : StateM Machine (Except LogError Unit)).run
      machine).1 = .ok ()) :
    RunId.check runId = .ok () ∧
      ∃ d₁ : Disk, d₁.write (RunPaths.of base runId).log (LogEntry.logText entries).toUTF8 =
        .ok ((writeRunLog base runId entries : StateM Machine (Except LogError Unit)).run
          machine).2.disk := by
  cases checked : RunId.check runId with
  | error e =>
      rw [writeRunLog, checked] at said
      cases said
  | ok _ =>
      rw [writeRunLog, checked] at said ⊢
      simp only at said ⊢
      rcases made : machine.disk.makeDirectories (RunPaths.of base runId).directory
        with ⟨_ | _, d₁⟩
      · rw [run_bind_eq (Machine.makeDirectories_run made)] at said
        cases said
      rw [run_bind_eq (Machine.makeDirectories_run made)] at said ⊢
      let machine₁ : Machine := { machine with disk := d₁ }
      cases written : machine₁.disk.write (RunPaths.of base runId).log
          (LogEntry.logText entries).toUTF8 with
      | error e =>
          rw [run_bind_eq (Machine.writeText_run_error written)] at said
          cases said
      | ok d₂ =>
          rw [run_bind_eq (Machine.writeText_run written)]
          exact ⟨trivial, d₁, written⟩

/-- **A log that was written is read back**: the file consists of lines, each of which is ended by a
newline byte and holds no other one, and they are the entries, one by one and in order. -/
theorem written_log_reads_back (base runId : String) (entries : List LogEntry) (machine : Machine)
    (said : ((writeRunLog base runId entries : StateM Machine (Except LogError Unit)).run
      machine).1 = .ok ()) :
    let after := ((writeRunLog base runId entries : StateM Machine (Except LogError Unit)).run
      machine).2.disk
    ∃ (content : ByteArray) (lines : List (List UInt8)),
      after.read (RunPaths.of base runId).log = .ok content ∧
        content.data.toList = lines.flatMap (· ++ [newline]) ∧
        (∀ line ∈ lines, newline ∉ line) ∧
        lines.mapM LogEntry.ofLine? = some entries := by
  intro after
  obtain ⟨accepted, d₁, written⟩ := writeRunLog_ok said
  have isName := RunId.isName (RunId.fault?_of_check accepted)
  have below : Below (RunPaths.runs base) (RunPaths.of base runId).log ([runId] ++ ["log.jsonl"]) :=
    RunPaths.below_run isName RunPaths.isName_log
  have holds : after.read (RunPaths.of base runId).log =
      .ok (LogEntry.logText entries).toUTF8 :=
    Disk.read_of_write (RunPaths.runs_ne_empty base) below (List.cons_ne_nil _ _) written
  refine ⟨_, entries.map LogEntry.line, holds, LogEntry.bytes_logText entries, ?_,
    LogEntry.mapM_ofLine?_line entries⟩
  intro line member
  obtain ⟨e, -, rfl⟩ := List.mem_map.mp member
  exact e.newline_not_mem_line

/-- A log of two entries, with line breaks and quotes in them and a day far off, takes the place of
an older log. -/
theorem odd_log_reads_back :
    let early : Timestamp := ⟨⟨-7, 2, 28⟩, ⟨23, 59, 60, 5⟩, by decide, by decide⟩
    let late : Timestamp := ⟨⟨12025, 1, 1⟩, ⟨6, 0, 0, 0⟩, by decide, by decide⟩
    let entries : List LogEntry :=
      [⟨"run-1", .warn, "engine", "step\r\n", "a \"quoted\"\nmessage", late⟩,
        ⟨"é", .error, "", "\t\\", "\n\n", early⟩]
    let machine := holding (.directory [("out", .directory [("runs", .directory
      [("run-1", .directory [("log.jsonl", .file "older\n".toUTF8)])])])])
    let after := (writeRunLog "out" "run-1" entries : StateM Machine (Except LogError Unit)).run
      machine
    machine.disk.read (RunPaths.of "out" "run-1").log = .ok "older\n".toUTF8 ∧
      after.1 = .ok () ∧
      ∃ (content : ByteArray) (lines : List (List UInt8)),
        after.2.disk.read (RunPaths.of "out" "run-1").log = .ok content ∧
          content.data.toList = lines.flatMap (· ++ [newline]) ∧
          (∀ line ∈ lines, newline ∉ line) ∧
          lines.mapM LogEntry.ofLine? = some entries := by
  intro early late entries machine after
  have said : after.1 = .ok () := rfl
  exact ⟨rfl, said, written_log_reads_back "out" "run-1" entries machine said⟩

end DirectoryStore

end BudgetedRun
