import BudgetedRun.File.Error
import BudgetedRun.Run.Consistency
import BudgetedRun.Run.Id

/-!
# Stores

A store keeps the last saved state of every run. This module says what a store can do and how it can
fail; `Store/Memory` and `Store/Directory` are two of them.
-/

namespace BudgetedRun

/-- Why a store cannot do what it is asked for. -/
inductive StoreError where
  | invalidRunId (e : RunIdError)
  | createDirectory (path : String) (e : FileError)
  | writeTemporary (path : String) (e : FileError)
  | replaceSnapshot (path : String) (e : FileError)
  | readSnapshot (path : String) (e : FileError)
  | notASnapshot (path : String)
  | foreignSnapshot (path runId : String)
  | inconsistent (path : String) (violations : List Violation)
  | readDirectory (path : String) (e : FileError)
  /-- There is no room for another state. -/
  | full
deriving DecidableEq

def StoreError.message : StoreError → String
  | invalidRunId e => e.message
  | createDirectory path e => s!"create directory {path}: {e.message}"
  | writeTemporary path e => s!"write temp snapshot {path}: {e.message}"
  | replaceSnapshot path e => s!"replace snapshot {path}: {e.message}"
  | readSnapshot path e => s!"read snapshot {path}: {e.message}"
  | notASnapshot path => s!"parse snapshot {path}"
  | foreignSnapshot path runId => s!"snapshot {path} belongs to run '{runId}'"
  | inconsistent path violations =>
    s!"inconsistent snapshot {path}: {Violation.summary violations}"
  | readDirectory path e => s!"read {path}: {e.message}"
  | full => "disk full"

/-- A place that keeps the last saved state of every run. -/
structure Store (m : Type → Type) where
  /-- Keep a state, in place of the one of the same run. -/
  save : RunState → m (Except StoreError Unit)
  /-- The last state of a run, if there is one. -/
  load : String → m (Except StoreError (Option RunState))
  /-- The runs with a state, in order. -/
  list : m (Except StoreError (List String))

end BudgetedRun
