import BudgetedRun.Proofs.File.Outside
import BudgetedRun.Proofs.Store.Directory

/-!
# Beside a store

Saving a state and writing a log change nothing beside the base directory of the store, whether they
succeed or not (`DirectoryStore.spares_save`, `DirectoryStore.spares_writeRunLog`).
-/

namespace BudgetedRun

open Disk BudgetedRun.Path

namespace Machine

variable {d : Disk} {base path target text : String} {more more' : List String}

/-- A change of the disk that spares what is elsewhere does so on any machine. -/
theorem spares_change {f : Disk → Except FileError Disk}
    (spares : ∀ d₁ d₂, f d₁ = .ok d₂ → d₁.Spares base d₂) :
    Keeps (fun machine => d.Spares base machine.disk) (change f) fun _ => True :=
  keeps_change fun machine _ changed still => still.trans (spares machine.disk _ changed)

variable (plain : ".." ∉ names base) (below : Below base path more)

include plain below

/-- To make directories at or below the base spares what is elsewhere. -/
theorem spares_makeDirectories :
    Keeps (fun machine => d.Spares base machine.disk)
      (FileSystem.makeDirectories path : StateM Machine (Except FileError Unit)) fun _ => True :=
  fun machine still => ⟨trivial, still.trans (.makeDirectories plain below machine.disk)⟩

/-- To write a file below the base spares what is elsewhere. -/
theorem spares_writeText (text : String) :
    Keeps (fun machine => d.Spares base machine.disk)
      (FileSystem.writeText path text : StateM Machine (Except FileError Unit)) fun _ => True :=
  spares_change fun _ _ written => .write plain below written

/-- To rename a file below the base spares what is elsewhere. -/
theorem spares_rename (below' : Below base target more') :
    Keeps (fun machine => d.Spares base machine.disk)
      (FileSystem.rename path target : StateM Machine (Except FileError Unit)) fun _ => True :=
  spares_change fun _ _ renamed => .rename plain below below' renamed

/-- To remove a file below the base spares what is elsewhere. -/
theorem spares_remove :
    Keeps (fun machine => d.Spares base machine.disk)
      (FileSystem.remove path : StateM Machine (Except FileError Unit)) fun _ => True :=
  spares_change fun _ _ removed => .remove plain below removed

end Machine

namespace DirectoryStore

variable {d : Disk} {base runId : String}

/-- To take a tag spares the whole disk. -/
theorem spares_freshTag :
    Keeps (fun machine => d.Spares base machine.disk)
      (FileSystem.freshTag : StateM Machine TemporaryTag) fun _ => True :=
  fun _ still => ⟨trivial, still⟩

/-- To replace the snapshot of a run spares what is not at or below the base directory. -/
theorem spares_replace (plain : ".." ∉ names base) (nonempty : base ≠ "") (isName : IsName runId)
    (text : String) :
    Keeps (fun machine => d.Spares base machine.disk)
      (replace (RunPaths.of base runId).snapshot text : StateM Machine (Except StoreError Unit))
      fun _ => True := by
  have below' : Below base (RunPaths.of base runId).snapshot _ :=
    RunPaths.below_file nonempty isName RunPaths.isName_snapshot
  have below (tag : TemporaryTag) :
      Below base (RunPaths.temporary (RunPaths.of base runId).snapshot tag) _ :=
    RunPaths.temporary_eq isName tag ▸
      RunPaths.below_file nonempty isName (RunPaths.isName_temporaryName tag)
  refine keeps_replace ?_ spares_freshTag
    (fun tag => Machine.spares_writeText plain (below tag) text)
    (fun tag => Machine.spares_rename plain (below tag) below')
    fun tag => Machine.spares_remove plain (below tag)
  rw [RunPaths.parent?_snapshot isName]
  exact Machine.spares_makeDirectories plain (RunPaths.below_directory nonempty isName)

/-- To save a state, whatever its id, spares what is not at or below the base directory. -/
theorem spares_save (plain : ".." ∉ names base) (nonempty : base ≠ "") (s : RunState) :
    Keeps (fun machine => d.Spares base machine.disk)
      (save base s : StateM Machine (Except StoreError Unit)) fun _ => True := by
  rw [save, paths]
  cases checked : RunId.check s.runId with
  | error e => exact .pure trivial
  | ok _ =>
      exact spares_replace plain nonempty (RunId.isName (RunId.fault?_of_check checked)) s.snapshot

/-- To write the log of a run spares what is not at or below the base directory. -/
theorem spares_writeRunLog (plain : ".." ∉ names base) (nonempty : base ≠ "") (runId : String)
    (entries : List LogEntry) :
    Keeps (fun machine => d.Spares base machine.disk)
      (writeRunLog base runId entries : StateM Machine (Except LogError Unit)) fun _ => True := by
  rw [writeRunLog]
  cases checked : RunId.check runId with
  | error e => exact .pure trivial
  | ok _ =>
      have isName := RunId.isName (RunId.fault?_of_check checked)
      refine (Machine.spares_makeDirectories plain
        (RunPaths.below_directory nonempty isName)).bind fun made _ => ?_
      cases made with
      | error e => exact .pure trivial
      | ok _ =>
          have below := RunPaths.below_file nonempty isName RunPaths.isName_log
          refine (Machine.spares_writeText plain below _).bind fun written _ => ?_
          cases written with
          | error e => exact .pure trivial
          | ok _ => exact .pure trivial

end DirectoryStore

end BudgetedRun
