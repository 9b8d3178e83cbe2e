import BudgetedRun.Config.File
import BudgetedRun.Proofs.Config.Text
import BudgetedRun.Proofs.File.Siblings
import BudgetedRun.Proofs.File.Host

/-!
# Settings that are saved

How saving settings goes, stage by stage (`Config.Saves`). Settings that were saved are loaded
again, and settings that could not be saved leave what is loaded as it was
(`Config.saved_settings_load`).
-/

namespace BudgetedRun

open Disk BudgetedRun.Path

namespace Config

variable {path parent : String} {c settings : Config} {machine machine' : Machine} {d d' d'' : Disk}

section loading

/-- What is loaded depends on the file only, and loading changes nothing. -/
theorem load_run_congr (read : machine'.disk.read path = machine.disk.read path)
    (present : machine'.disk.isPresent path = machine.disk.isPresent path) :
    (load path : StateM Machine (Except ConfigLoadError Config)).run machine' =
      (((load path : StateM Machine (Except ConfigLoadError Config)).run machine).1, machine') := by
  have looks (machine : Machine) : (FileSystem.isPresent path : StateM Machine Bool).run machine =
      (machine.disk.isPresent path, machine) := rfl
  rw [load, run_bind_eq (looks machine'), run_bind_eq (looks machine), present]
  cases machine.disk.isPresent path with
  | false => rfl
  | true =>
      have same := Machine.readText_run_congr read
      have still := @Machine.readText_run_congr machine path machine rfl
      rw [if_pos rfl, run_bind_eq same, run_bind_eq still]
      let text : StateM Machine (Except FileError String) := FileSystem.readText path
      cases (text.run machine).1 <;> rfl

/-- Where there is no file the standard settings are loaded. -/
theorem load_run_absent (absent : machine.disk.isPresent path = false) :
    (load path : StateM Machine (Except ConfigLoadError Config)).run machine =
      (.ok standard, machine) := by
  have looks : (FileSystem.isPresent path : StateM Machine Bool).run machine = (false, machine) :=
    congrArg (·, machine) absent
  rw [load, run_bind_eq looks]
  rfl

/-- The text of settings that can be used is loaded as these settings. -/
theorem load_run_present (present : machine.disk.isPresent path = true)
    (read : machine.disk.read path = .ok c.render.toUTF8) (valid : c.validate = .ok ()) :
    ((load path : StateM Machine (Except ConfigLoadError Config)).run machine).1 = .ok c := by
  have looks : (FileSystem.isPresent path : StateM Machine Bool).run machine = (true, machine) :=
    congrArg (·, machine) present
  rw [load, run_bind_eq looks, if_pos rfl, run_bind_eq (Machine.readText_run read)]
  simp only [ofText, parse?_render, valid]
  rfl

end loading

section saving

/-- How saving settings goes: what is answered, and the files afterwards. Directories are made, the
text is written to a temporary file, and this is moved to the path; each stage is reached only if
those before it succeeded. -/
inductive Saves (path : String) (c : Config) (d : Disk) :
    Except ConfigSaveError Unit → Disk → Prop where
  | invalid {e : ConfigError} (refused : c.validate = .error e) :
      Saves path c d (.error (.invalid e)) d
  | noParent (above : parent? path = none) : Saves path c d (.error (.noParent path)) d
  | uncreated {parent : String} {e : FileError} {d' : Disk} (above : parent? path = some parent)
      (made : d.makeDirectories parent = (.error e, d')) :
      Saves path c d (.error (.createDirectory parent e)) d'
  | unwritten {parent : String} {e : FileError} {d' : Disk} (above : parent? path = some parent)
      (made : d.makeDirectories parent = (.ok (), d'))
      (failed : d'.write (withExtension path "toml.tmp") c.render.toUTF8 = .error e) :
      Saves path c d (.error (.writeTemporary (withExtension path "toml.tmp") e)) d'
  | unreplaced {parent : String} {e : FileError} {d' d'' : Disk}
      (above : parent? path = some parent) (made : d.makeDirectories parent = (.ok (), d'))
      (written : d'.write (withExtension path "toml.tmp") c.render.toUTF8 = .ok d'')
      (failed : d''.rename (withExtension path "toml.tmp") path = .error e) :
      Saves path c d (.error (.replace path e)) d''
  | replaced {parent : String} {d' d'' d₃ : Disk} (valid : c.validate = .ok ())
      (above : parent? path = some parent) (made : d.makeDirectories parent = (.ok (), d'))
      (written : d'.write (withExtension path "toml.tmp") c.render.toUTF8 = .ok d'')
      (renamed : d''.rename (withExtension path "toml.tmp") path = .ok d₃) :
      Saves path c d (.ok ()) d₃

/-- Every save goes in one of these ways. -/
theorem save_run (path : String) (c : Config) (machine : Machine) :
    let saved := (save path c : StateM Machine (Except ConfigSaveError Unit)).run machine
    Saves path c machine.disk saved.1 saved.2.disk := by
  cases valid : c.validate with
  | error e =>
      simp only [save, valid]
      exact .invalid valid
  | ok _ =>
      cases above : parent? path with
      | none =>
          simp only [save, valid, above]
          exact .noParent above
      | some parent =>
          simp only [save, valid, above]
          rcases made : machine.disk.makeDirectories parent with ⟨_ | _, d₁⟩
          · rw [run_bind_eq (Machine.makeDirectories_run made)]
            exact .uncreated above made
          rw [run_bind_eq (Machine.makeDirectories_run made)]
          let machine₁ : Machine := { machine with disk := d₁ }
          cases written : machine₁.disk.write (withExtension path "toml.tmp") c.render.toUTF8 with
          | error e =>
              simp only
              rw [run_bind_eq (Machine.writeText_run_error written)]
              exact .unwritten above made written
          | ok d₂ =>
              simp only
              rw [run_bind_eq (Machine.writeText_run written)]
              let machine₂ : Machine := { machine₁ with disk := d₂ }
              cases renamed : machine₂.disk.rename (withExtension path "toml.tmp") path with
              | error e =>
                  simp only
                  rw [run_bind_eq (Machine.rename_run_error renamed)]
                  exact .unreplaced above made written renamed
              | ok d₃ =>
                  simp only
                  rw [run_bind_eq (Machine.rename_run renamed)]
                  exact .replaced valid above made written renamed

/-- What is loaded after files were looked at on the way to a path, and directories made, is what
was loaded before. -/
theorem load_run_made (current : machine'.disk.current = machine.disk.current)
    (plain : ".." ∉ names path)
    (fresh : ∀ place, place <+: machine.disk.resolve path →
      SameOrMade machine.disk machine'.disk place)
    (same : machine'.disk.root.seen? (machine.disk.resolve path) =
      machine.disk.root.seen? (machine.disk.resolve path)) :
    ((load path : StateM Machine (Except ConfigLoadError Config)).run machine').1 =
      ((load path : StateM Machine (Except ConfigLoadError Config)).run machine).1 := by
  obtain ⟨read, present⟩ := read_made current plain fresh same
  rcases read with read | ⟨missing, -⟩
  · rw [load_run_congr read present]
  · have absent : machine.disk.isPresent path = false := isPresent_of_read missing
    rw [load_run_absent absent, load_run_absent (present.trans absent)]

/-- The stages of a save that come before the last one leave what is noticed at the path, and what
is noticed on the way to it but for directories that are made. -/
theorem Saves.fresh {e : ConfigSaveError} (saves : Saves path c d (.error e) d')
    (plain : ".." ∉ names path) :
    d'.current = d.current ∧ (∀ place, place <+: d.resolve path → SameOrMade d d' place) ∧
      d'.root.seen? (d.resolve path) = d.root.seen? (d.resolve path) := by
  cases saves with
  | invalid refused => exact ⟨rfl, fun _ _ => .inl rfl, rfl⟩
  | noParent above => exact ⟨rfl, fun _ _ => .inl rfl, rfl⟩
  | uncreated above made =>
      obtain ⟨current, fresh, same⟩ := seen?_makeDirectories_parent plain above made
      exact ⟨current, fun place _ => fresh place, same⟩
  | unwritten above made failed =>
      obtain ⟨current, fresh, same⟩ := seen?_makeDirectories_parent plain above made
      exact ⟨current, fun place _ => fresh place, same⟩
  | unreplaced above made written failed =>
      rename_i d₁
      obtain ⟨current, fresh, same⟩ := seen?_makeDirectories_parent plain above made
      obtain ⟨_, _, located, _, _, put⟩ := write_ok written
      have siblings := siblings_of_locate plain above located
      have resolve : d₁.resolve path = d.resolve path := by
        rw [Disk.resolve, Disk.resolve, origin, origin, current]
      -- The temporary file is not on the way to the path.
      have aside {place : List String} (within : place <+: d.resolve path) :
          d'.root.seen? place = d₁.root.seen? place :=
        siblings.seen?_of_write written (resolve ▸ within)
      refine ⟨put ▸ current, fun place within => ?_, (aside (List.prefix_refl _)).trans same⟩
      rw [SameOrMade, aside within]
      exact fresh place

/-- Settings are saved only if they are valid. -/
theorem Saves.valid (saves : Saves path c d (.ok ()) d') : c.validate = .ok () := by
  cases saves with
  | replaced valid => exact valid

/-- A save that succeeds leaves its text at the path. -/
theorem Saves.find (saves : Saves path c d (.ok ()) d') (plain : ".." ∉ names path) :
    d'.find path = .ok (.file c.render.toUTF8) := by
  cases saves with
  | replaced valid above made written renamed =>
      obtain ⟨_, _, located, -⟩ := write_ok written
      exact (siblings_of_locate plain above located).find_replaced written renamed

end saving

/-- **Settings that were saved are loaded again, and a save that fails does not change what is
loaded**, at any path without `..`. -/
theorem saved_settings_load (path : String) (plain : Component.parent ∉ components path)
    (c : Config) (machine : Machine) :
    let saved := (save path c : StateM Machine (Except ConfigSaveError Unit)).run machine
    let loaded (machine : Machine) :=
      ((load path : StateM Machine (Except ConfigLoadError Config)).run machine).1
    (saved.1 = .ok () → loaded saved.2 = .ok c) ∧
      ∀ e, saved.1 = .error e → loaded saved.2 = loaded machine := by
  intro saved loaded
  have plain := plain_of_components plain
  have saves : Saves path c machine.disk saved.1 saved.2.disk := save_run path c machine
  constructor
  · intro said
    rw [said] at saves
    have found := saves.find plain
    have present : saved.2.disk.isPresent path = true := by
      rw [isPresent, found]
    have read : saved.2.disk.read path = .ok c.render.toUTF8 := by
      rw [Disk.read, found]
    exact load_run_present present read saves.valid
  · intro e said
    rw [said] at saves
    obtain ⟨current, fresh, same⟩ := saves.fresh plain
    exact load_run_made current plain fresh same

/-- Settings with quotes, line breaks and control characters in their texts come back from a
directory that is made on the way; where a directory is in the way of the file, what is loaded stays
the same. -/
theorem odd_settings_load :
    let now : Timestamp := ⟨⟨2025, 1, 1⟩, ⟨6, 0, 0, 0⟩, by decide, by decide⟩
    let machine : Machine :=
      ⟨⟨.directory [("taken", .directory [])], []⟩, 7, 0, fun _ => now, fun _ => 0, 0, 0⟩
    let odd : Config := ⟨⟨4294967295, 18446744073709551615, some 1⟩, "a\\b \"c\" 'd'",
      ⟨"\x00\"\"\"\n'''\r\t\x7f λ", 0, 18446744073709551615, 9⟩⟩
    let saved (path : String) :=
      (save path odd : StateM Machine (Except ConfigSaveError Unit)).run machine
    let loaded (path : String) (machine : Machine) :=
      ((load path : StateM Machine (Except ConfigLoadError Config)).run machine).1
    loaded "deep/.//c.toml" (saved "deep/.//c.toml").2 = .ok odd ∧
      (saved "taken").1 = .error (.replace "taken" .isADirectory) ∧
      loaded "taken" (saved "taken").2 = .error (.read "taken" .isADirectory) := by
  intro now machine odd saved loaded
  have done : (saved "deep/.//c.toml").1 = .ok () := rfl
  have failed : (saved "taken").1 = .error (.replace "taken" .isADirectory) := rfl
  have unreadable : loaded "taken" machine = .error (.read "taken" .isADirectory) := rfl
  exact ⟨(saved_settings_load "deep/.//c.toml" (by decide) odd machine).1 done, failed,
    ((saved_settings_load "taken" (by decide) odd machine).2 _ failed).trans unreadable⟩

end Config

end BudgetedRun
