import BudgetedRun.File.Host
import BudgetedRun.Run.Log
import BudgetedRun.Store.Basic

/-!
# Stores in a directory

A store that keeps the state of each run in a file of its own:

* `runs/<run id>/snapshot.json` is the state,
* `runs/<run id>/log.jsonl` is the log, for those who write one.

A state is written to a temporary file first, which then takes the place of the old state, so that a
reader finds one of the two and never a part of one.
-/

namespace BudgetedRun

open FileSystem

/-- Where the files of a run are. -/
structure RunPaths where
  directory : String
  snapshot : String
  log : String
deriving DecidableEq

namespace RunPaths

/-- Where all runs are. -/
def runs (base : String) : String := Path.join base "runs"

/-- The files of a run under a base directory. -/
def of (base runId : String) : RunPaths :=
  let directory := Path.join (runs base) runId
  ⟨directory, Path.join directory "snapshot.json", Path.join directory "log.jsonl"⟩

/-- The temporary file that becomes a snapshot. -/
def temporary (snapshot : String) (tag : TemporaryTag) : String :=
  Path.withExtension snapshot s!"json.{tag.process}.{tag.count}.tmp"

end RunPaths

namespace DirectoryStore

variable {m : Type → Type} [Monad m] [FileSystem m]

/-- The files of a run, if its id is a plain name. -/
def paths (base runId : String) : Except StoreError RunPaths :=
  match RunId.check runId with
  | .ok () => .ok (.of base runId)
  | .error e => .error (.invalidRunId e)

/-- Write a text in place of a snapshot, by way of a temporary file, which does not remain. -/
def replace (snapshot text : String) : m (Except StoreError Unit) := do
  let parent := (Path.parent? snapshot).getD ""
  match ← makeDirectories parent with
  | .error e => return .error (.createDirectory parent e)
  | .ok () =>
    let temporary := RunPaths.temporary snapshot (← freshTag)
    match ← writeText temporary text with
    | .error e => return .error (.writeTemporary temporary e)
    | .ok () =>
      match ← rename temporary snapshot with
      | .ok () => return .ok ()
      | .error e =>
        let _ ← remove temporary
        return .error (.replaceSnapshot snapshot e)

/-- Keep a state, in place of the one of the same run. -/
def save (base : String) (s : RunState) : m (Except StoreError Unit) := do
  match paths base s.runId with
  | .error e => return .error e
  | .ok p => replace p.snapshot s.snapshot

/-- The state in the text of a snapshot, which must be a consistent one of the given run. -/
def readState (path runId text : String) : Except StoreError RunState :=
  match RunState.parse? text with
  | none => .error (.notASnapshot path)
  | some s =>
    if s.runId ≠ runId then .error (.foreignSnapshot path s.runId)
    else if s.violations ≠ [] then .error (.inconsistent path s.violations)
    else .ok s

/-- The last state of a run, if there is one. -/
def load (base runId : String) : m (Except StoreError (Option RunState)) := do
  match paths base runId with
  | .error e => return .error e
  | .ok p =>
    match ← readText p.snapshot with
    | .error .notFound => return .ok none
    | .error e => return .error (.readSnapshot p.snapshot e)
    | .ok text => return (readState p.snapshot runId text).map some

/-- The run ids among some names that have a snapshot. -/
def withSnapshot (base : String) : List String → m (List String)
  | [] => return []
  | name :: rest => do
    if (RunId.fault? name).isNone then
      let present ← isPresent (RunPaths.of base name).snapshot
      let others ← withSnapshot base rest
      return if present then name :: others else others
    else withSnapshot base rest

/-- The runs with a snapshot, in order. -/
def list (base : String) : m (Except StoreError (List String)) := do
  match ← FileSystem.list (RunPaths.runs base) with
  | .error .notFound => return .ok []
  | .error e => return .error (.readDirectory (RunPaths.runs base) e)
  | .ok names => return .ok ((← withSnapshot base names).mergeSort (· ≤ ·))

def store (base : String) : Store m where
  save := save base
  load := load base
  list := list base

end DirectoryStore

/-- Why a log is not written. -/
inductive LogError where
  | invalidRunId (e : RunIdError)
  | createDirectory (path : String) (e : FileError)
  | createFile (path : String) (e : FileError)
deriving DecidableEq

def LogError.message : LogError → String
  | invalidRunId e => e.message
  | createDirectory path e => s!"create run dir {path}: {e.message}"
  | createFile path e => s!"create {path}: {e.message}"

/-- Write the log of a run under a base directory, in place of an older one. -/
def writeRunLog {m : Type → Type} [Monad m] [FileSystem m] (base runId : String)
    (entries : List LogEntry) : m (Except LogError Unit) := do
  match RunId.check runId with
  | .error e => return .error (.invalidRunId e)
  | .ok () =>
    let p := RunPaths.of base runId
    match ← makeDirectories p.directory with
    | .error e => return .error (.createDirectory p.directory e)
    | .ok () =>
      match ← writeText p.log (LogEntry.logText entries) with
      | .error e => return .error (.createFile p.log e)
      | .ok () => return .ok ()

end BudgetedRun
