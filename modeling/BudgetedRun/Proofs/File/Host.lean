import BudgetedRun.File.Host
import BudgetedRun.Proofs.Engine.Environment

/-!
# What the operations of a host do

Each operation on the files of a host changes its tree, or looks at it, and leaves the rest of the
host as it is. A longer action is worked out one operation after another (`run_bind_eq`), or keeps
what each of its operations keeps (`Machine.keeps_change`).
-/

namespace BudgetedRun

/-- What an action does, followed by another one. -/
theorem run_bind_eq {σ α β : Type} {x : StateM σ α} {f : α → StateM σ β} {s s' : σ} {a : α}
    (ran : x.run s = (a, s')) : (x >>= f).run s = (f a).run s' := by
  rw [StateT.run_bind, ran]
  rfl

namespace Machine

variable {machine : Machine} {path target text : String} {d : Disk}

/-- A change that succeeds leaves the disk that it makes. -/
theorem change_run_ok {f : Disk → Except FileError Disk} (changed : f machine.disk = .ok d) :
    (change f).run machine = (.ok (), { machine with disk := d }) := by
  simp only [change, StateT.run_bind, StateT.run_get, pure_bind]
  rw [changed]
  rfl

/-- A change that fails leaves the machine as it was. -/
theorem change_run_error {f : Disk → Except FileError Disk} {e : FileError}
    (failed : f machine.disk = .error e) : (change f).run machine = (.error e, machine) := by
  simp only [change, StateT.run_bind, StateT.run_get, pure_bind]
  rw [failed]
  rfl

/-- A change keeps what it keeps where it succeeds. -/
theorem keeps_change {good : Machine → Prop} {f : Disk → Except FileError Disk}
    (changes : ∀ machine d, f machine.disk = .ok d → good machine →
      good { machine with disk := d }) :
    Keeps good (change f) fun _ => True := by
  intro machine well
  cases changed : f machine.disk with
  | error e =>
      rw [change_run_error changed]
      exact ⟨trivial, well⟩
  | ok d =>
      rw [change_run_ok changed]
      exact ⟨trivial, changes machine d changed well⟩

/-- To make directories is to make them on the disk. -/
theorem makeDirectories_run {result : Except FileError Unit}
    (made : machine.disk.makeDirectories path = (result, d)) :
    (FileSystem.makeDirectories path : StateM Machine (Except FileError Unit)).run machine =
      (result, { machine with disk := d }) := by
  change ((machine.disk.makeDirectories path).1,
    { machine with disk := (machine.disk.makeDirectories path).2 }) = _
  rw [made]

/-- A text is written as a file with its UTF-8 bytes. -/
theorem writeText_run (written : machine.disk.write path text.toUTF8 = .ok d) :
    (FileSystem.writeText path text : StateM Machine (Except FileError Unit)).run machine =
      (.ok (), { machine with disk := d }) :=
  @change_run_ok machine d (·.write path text.toUTF8) written

/-- To rename a file is to rename it on the disk. -/
theorem rename_run (renamed : machine.disk.rename path target = .ok d) :
    (FileSystem.rename path target : StateM Machine (Except FileError Unit)).run machine =
      (.ok (), { machine with disk := d }) :=
  @change_run_ok machine d (·.rename path target) renamed

theorem writeText_run_error {e : FileError}
    (failed : machine.disk.write path text.toUTF8 = .error e) :
    (FileSystem.writeText path text : StateM Machine (Except FileError Unit)).run machine =
      (.error e, machine) :=
  @change_run_error machine (·.write path text.toUTF8) e failed

theorem rename_run_error {e : FileError} (failed : machine.disk.rename path target = .error e) :
    (FileSystem.rename path target : StateM Machine (Except FileError Unit)).run machine =
      (.error e, machine) :=
  @change_run_error machine (·.rename path target) e failed

/-- To remove a file is to remove it on the disk. -/
theorem remove_run (removed : machine.disk.remove path = .ok d) :
    (FileSystem.remove path : StateM Machine (Except FileError Unit)).run machine =
      (.ok (), { machine with disk := d }) :=
  @change_run_ok machine d (·.remove path) removed

theorem remove_run_error {e : FileError} (failed : machine.disk.remove path = .error e) :
    (FileSystem.remove path : StateM Machine (Except FileError Unit)).run machine =
      (.error e, machine) :=
  @change_run_error machine (·.remove path) e failed

/-- Each tag is used once. -/
theorem freshTag_run :
    (FileSystem.freshTag : StateM Machine TemporaryTag).run machine =
      (⟨machine.process, machine.tags⟩, { machine with tags := machine.tags + 1 }) := rfl

/-- A file with the bytes of a text is read as that text. -/
theorem readText_run (read : machine.disk.read path = .ok text.toUTF8) :
    (FileSystem.readText path : StateM Machine (Except FileError String)).run machine =
      (.ok text, machine) := by
  have reads :
      (FileSystem.readFile path : StateM Machine (Except FileError ByteArray)).run machine =
        (.ok text.toUTF8, machine) := congrArg (·, machine) read
  have decoded : String.fromUTF8? text.toUTF8 = some text := dif_pos text.isValidUTF8
  rw [FileSystem.readText, run_bind_eq reads]
  simp only [decoded]
  rfl

/-- A file that cannot be read leaves the machine as it was. -/
theorem readText_run_error {e : FileError} (read : machine.disk.read path = .error e) :
    (FileSystem.readText path : StateM Machine (Except FileError String)).run machine =
      (.error e, machine) := by
  have reads :
      (FileSystem.readFile path : StateM Machine (Except FileError ByteArray)).run machine =
        (.error e, machine) := congrArg (·, machine) read
  rw [FileSystem.readText, run_bind_eq reads]
  rfl

/-- What is read depends on the file only, and reading changes nothing. -/
theorem readText_run_congr {machine' : Machine}
    (same : machine'.disk.read path = machine.disk.read path) :
    (FileSystem.readText path : StateM Machine (Except FileError String)).run machine' =
      (((FileSystem.readText path : StateM Machine (Except FileError String)).run machine).1,
        machine') := by
  have reads (machine : Machine) :
      (FileSystem.readFile path : StateM Machine (Except FileError ByteArray)).run machine =
        (machine.disk.read path, machine) := rfl
  rw [FileSystem.readText, run_bind_eq (reads machine'), run_bind_eq (reads machine), same]
  cases machine.disk.read path with
  | error e => rfl
  | ok bytes =>
      simp only
      cases String.fromUTF8? bytes <;> rfl

end Machine

end BudgetedRun
