import BudgetedRun.Run.Tokens
import BudgetedRun.Time.Timestamp

/-!
# The state of a run

One value holds all there is to know about a run: how far it is in its plan, what it has spent, what
went wrong and how it ended. It is what a store keeps and what a run gives back.
-/

namespace BudgetedRun

/-- Where a run is in its life. -/
inductive RunStatus where
  | running
  | completed
  | stopped
  | failed
deriving DecidableEq, Repr

namespace RunStatus

/-- Every status but `running` is final. -/
def isTerminal : RunStatus → Bool
  | running => false
  | _ => true

def name : RunStatus → String
  | running => "running"
  | completed => "completed"
  | stopped => "stopped"
  | failed => "failed"

def all : List RunStatus := [running, completed, stopped, failed]

/-- The exit code of a command that ran a plan to this status. -/
def exitCode : RunStatus → UInt32
  | completed => 0
  | running => 1
  | stopped => 2
  | failed => 3

end RunStatus

/-- Why a run ended before the end of its plan. -/
inductive StopReason where
  | maxIterations
  | budgetExhausted
  /-- The time limit; it has no reason of its own. -/
  | error
  | cancelled
deriving DecidableEq, Repr

namespace StopReason

def name : StopReason → String
  | maxIterations => "max_iterations"
  | budgetExhausted => "budget_exhausted"
  | error => "error"
  | cancelled => "cancelled"

def all : List StopReason := [maxIterations, budgetExhausted, error, cancelled]

end StopReason

/-- A failure that a run recorded. -/
structure Incident where
  stepId : Option String
  message : String
  timestamp : Timestamp
  /-- The run went on after it. -/
  recoverable : Bool
deriving DecidableEq

/-- The state of a run. -/
structure RunState where
  runId : String
  planId : String
  status : RunStatus
  stopReason : Option StopReason
  currentStepIndex : UInt64
  iterationCount : UInt32
  tokenUsage : TokenUsage
  errors : List Incident
  startTime : Timestamp
  endTime : Option Timestamp
deriving DecidableEq

namespace RunState

/-- The state of a run before its first iteration. -/
def start (runId planId : String) (now : Timestamp) : RunState where
  runId := runId
  planId := planId
  status := .running
  stopReason := none
  currentStepIndex := 0
  iterationCount := 0
  tokenUsage := .zero
  errors := []
  startTime := now
  endTime := none

def isTerminal (s : RunState) : Bool := s.status.isTerminal

end RunState

end BudgetedRun
