import BudgetedRun.File.Host
import BudgetedRun.Plan.Text

/-!
# Plan files

Reading a plan that can be run from a file.
-/

namespace BudgetedRun

/-- Why a file gives no plan that can be run. -/
inductive PlanFileError where
  | read (path : String) (e : FileError)
  | load (path : String) (e : PlanTextError)

def PlanFileError.message : PlanFileError → String
  | read path e => s!"read plan {path}: {e.message}"
  | load path e => s!"load plan {path}: {e.message}"

def Plan.load {m : Type → Type} [Monad m] [FileSystem m] (path : String) :
    m (Except PlanFileError Plan) := do
  match ← FileSystem.readText path with
  | .error e => return .error (.read path e)
  | .ok text =>
    match Plan.parse text with
    | .ok p => return .ok p
    | .error e => return .error (.load path e)

end BudgetedRun
