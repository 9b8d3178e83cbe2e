import BudgetedRun.Command.Arguments
import BudgetedRun.Config.File
import BudgetedRun.Engine
import BudgetedRun.Plan.File
import BudgetedRun.Store.Directory

/-!
# Performing commands

What each command does on a host, what it prints, and its exit code. A command that is refused
prints one line and has exit code 1; a run has the exit code of its status. The log of a run is
written after the run, and whether that succeeds makes no difference to the command.
-/

namespace BudgetedRun

/-- What a command leaves behind for its caller. -/
structure Output where
  code : UInt32
  out : String
  /-- The lines for the error stream. -/
  err : List String
deriving DecidableEq

/-- Why a command is refused. -/
inductive CommandError where
  | config (e : ConfigLoadError)
  | limits (e : ConfigError)
  | plan (e : PlanFileError)
  | invalidPlan (e : PlanError)
  | runId (e : RunIdError)
  | store (e : StoreError)
  | noSnapshot (id : String)

def CommandError.message : CommandError → String
  | config e => e.message
  | limits e => e.message
  | plan e => e.message
  | invalidPlan e => e.message
  | runId e => e.message
  | store e => e.message
  | noSnapshot id => s!"no snapshot for run '{id}'"

/-- The run id for a run that is given none, by the time of its start. -/
def generatedRunId (t : Timestamp) : String :=
  String.ofList
    (['r', 'u', 'n', '-'] ++ Timestamp.yearChars t.date.year ++ Timestamp.padded 2 t.date.month ++
      Timestamp.padded 2 t.date.day ++ 'T' :: Timestamp.padded 2 t.time.hour ++
      Timestamp.padded 2 t.time.minute ++ Timestamp.padded 2 t.time.second ++
      Timestamp.padded 3 (t.time.nano / 1000000))

namespace Output

/-- A command that did what it was asked for. -/
def ok (out : String) : Output := ⟨0, out, []⟩

/-- A command that was refused. -/
def refused (e : CommandError) : Output := ⟨1, "", [e.message]⟩

/-- A run that is over. -/
def ofResult : Except RunError RunState → Output
  | .ok s => ⟨s.status.exitCode, s.snapshot, []⟩
  | .error (.failed f) => ⟨RunStatus.failed.exitCode, f.state.snapshot, [f.message]⟩
  | .error (.invalidPlan e) => refused (.invalidPlan e)

end Output

namespace Command

variable {m : Type → Type} [Monad m] [FileSystem m] [Clock m]

/-- The surroundings of a run that a command starts. States that nobody will read are not kept.
Nobody wants the run to end: the interrupt from the keyboard by which one can ask for that while the
program runs is left out here. What is proved of runs in any surroundings holds with it too. -/
def environment (config : Config) (store : StoreKind) : Environment m where
  now := Clock.now
  steady := Clock.steady
  cancelled := return false
  call r := do
    Clock.sleep (.ofMillis config.mock.latencyMillis.toNat)
    return MockProvider.answer ⟨config.mock, []⟩ r
  save s :=
    match store with
    | .memory => return .ok ()
    | .file => DirectoryStore.save config.storePath s

/-- Run a plan and write the log of the run next to its state. -/
def execute (config : Config) (budgets : Budgets) (store : StoreKind) (job : Job) : m Output := do
  let report ← Engine.execute (environment config store) budgets job
  match store with
  | .memory => return .ofResult report.result
  | .file =>
    let _ ← writeRunLog config.storePath job.runId report.log
    return .ofResult report.result

/-- The run id that is given, or a new one. -/
def chooseRunId : Option String → m String
  | some id => return id
  | none => return generatedRunId (← Clock.now)

def performRun (plan repository : String) (runId : Option String) (config : String)
    (store : StoreKind) : m Output := do
  match ← Config.load config with
  | .error e => return .refused (.config e)
  | .ok settings =>
    match ← Plan.load plan with
    | .error e => return .refused (.plan e)
    | .ok p =>
      let id ← chooseRunId runId
      match RunId.check id with
      | .error e => return .refused (.runId e)
      | .ok () =>
        match settings.budgets with
        | .error e => return .refused (.limits e)
        | .ok budgets => execute settings budgets store ⟨p, id, repository⟩

/-- Perform the command that prints the state of a run. -/
def performShow (runId config : String) : m Output := do
  match ← Config.load config with
  | .error e => return .refused (.config e)
  | .ok settings =>
    match ← DirectoryStore.load settings.storePath runId with
    | .error e => return .refused (.store e)
    | .ok none => return .refused (.noSnapshot runId)
    | .ok (some s) => return .ok s.snapshot

def performList (config : String) : m Output := do
  match ← Config.load config with
  | .error e => return .refused (.config e)
  | .ok settings =>
    match ← DirectoryStore.list settings.storePath with
    | .error e => return .refused (.store e)
    | .ok ids => return .ok (String.join (ids.map (· ++ "\n")))

def performValidate (plan : String) : m Output := do
  match ← Plan.load plan with
  | .error e => return .refused (.plan e)
  | .ok p => return .ok s!"plan '{p.id}' ok ({p.steps.length} steps)\n"

def perform : Command → m Output
  | .run plan repository runId config store => performRun plan repository runId config store
  | .showRun runId config => performShow runId config
  | .listRuns config => performList config
  | .validate plan => performValidate plan

end Command

end BudgetedRun
