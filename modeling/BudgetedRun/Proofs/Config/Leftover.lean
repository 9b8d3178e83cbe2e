import BudgetedRun.Proofs.Config.File
import BudgetedRun.Proofs.File.Content

/-!
# What a failed save leaves behind

Settings that cannot be saved leave all files as they were, unless the very last stage fails, where
the temporary file cannot be moved to its place: then this one file stays, with the text of the
settings in it (`Config.failed_save_leaves_temporary`). A snapshot that cannot be replaced takes its
temporary file away again; saving settings does not.
-/

namespace BudgetedRun

open Disk BudgetedRun.Path

namespace Config

variable {path : String} {c : Config} {machine : Machine} {d d' : Disk} {e : ConfigSaveError}

/-- Before the last stage no file is changed. -/
theorem Saves.file?_eq (saves : Saves path c d (.error e) d')
    (early : ∀ reason, e ≠ .replace path reason) (place : List String) :
    d'.file? place = d.file? place := by
  have made (parent : String) : (d.makeDirectories parent).2.file? place = d.file? place :=
    (sameOrMade_makeDirectories parent d place).file?_eq
  cases saves with
  | invalid refused => rfl
  | noParent above => rfl
  | @uncreated parent _ _ above makes =>
      rw [← made parent, makes]
  | @unwritten parent _ _ above makes failed =>
      rw [← made parent, makes]
  | unreplaced above makes written failed => exact absurd rfl (early _)

/-- Where the last stage fails, the temporary file has been written. -/
theorem Saves.leftover {reason : FileError}
    (saves : Saves path c d (.error (.replace path reason)) d') :
    ∃ dir name, d'.locate (withExtension path "toml.tmp") = .ok ⟨dir, some name, false⟩ ∧
      (∀ place, place ≠ dir ++ [name] → d'.file? place = d.file? place) ∧
      d'.file? (dir ++ [name]) = some c.render.toUTF8 := by
  cases saves with
  | @unreplaced parent _ d₁ _ above makes written failed =>
      have made : d₁ = (d.makeDirectories parent).2 := congrArg Prod.snd makes.symm
      obtain ⟨dir, name, located, there, vacant, rfl⟩ := write_ok written
      have keeps := Node.KeepsDirectories.modify_put vacant (.file c.render.toUTF8)
      refine ⟨dir, name, locate_of_keeps (d := d₁) rfl keeps located, fun place another => ?_,
        file?_put_self there⟩
      rw [file?_put vacant another, made]
      exact (sameOrMade_makeDirectories parent d place).file?_eq

/-- **A failed save leaves its temporary file behind if that cannot be moved to its place**, and
otherwise leaves all files as they were. -/
theorem failed_save_leaves_temporary (path : String) (c : Config) (machine : Machine)
    (failed : ((save path c : StateM Machine (Except ConfigSaveError Unit)).run machine).1 =
      .error e) :
    let after := ((save path c : StateM Machine (Except ConfigSaveError Unit)).run machine).2.disk
    ((∀ reason, e ≠ .replace path reason) →
      ∀ place, after.file? place = machine.disk.file? place) ∧
    ∀ reason, e = .replace path reason →
      ∃ dir name, after.locate (withExtension path "toml.tmp") = .ok ⟨dir, some name, false⟩ ∧
        (∀ place, place ≠ dir ++ [name] → after.file? place = machine.disk.file? place) ∧
        after.file? (dir ++ [name]) = some c.render.toUTF8 := by
  intro after
  have saves : Saves path c machine.disk _ after := save_run path c machine
  rw [failed] at saves
  refine ⟨fun early place => saves.file?_eq early place, ?_⟩
  rintro reason rfl
  exact saves.leftover

/-- Where a directory is in the way, the temporary file is new and stays. -/
theorem leftover_beside_directory :
    let now : Timestamp := ⟨⟨2025, 1, 1⟩, ⟨6, 0, 0, 0⟩, by decide, by decide⟩
    let machine : Machine :=
      ⟨⟨.directory [("c.toml", .directory [])], []⟩, 7, 0, fun _ => now, fun _ => 0, 0, 0⟩
    let saved := (save "c.toml" standard : StateM Machine (Except ConfigSaveError Unit)).run machine
    saved.1 = .error (.replace "c.toml" .isADirectory) ∧
      machine.disk.file? ["c.toml.tmp"] = none ∧
      saved.2.disk.file? ["c.toml.tmp"] = some standard.render.toUTF8 := by
  intro now machine saved
  have failed : saved.1 = .error (.replace "c.toml" .isADirectory) := rfl
  obtain ⟨-, late⟩ := failed_save_leaves_temporary "c.toml" standard machine failed
  obtain ⟨dir, name, located, -, left⟩ := late _ rfl
  have place : saved.2.disk.locate (withExtension "c.toml" "toml.tmp") =
      .ok ⟨[], some "c.toml.tmp", false⟩ := rfl
  cases place.symm.trans located
  exact ⟨failed, rfl, left⟩

end Config

end BudgetedRun
