import BudgetedRun.Run.State

/-!
# Budgets

The hard limits of a run and the question asked before every iteration: may there be another one?
The iteration count is asked first, then the tokens, the time and the wish to cancel.
-/

namespace BudgetedRun

/-- A length of time. -/
structure Duration where
  nanoseconds : Nat
deriving DecidableEq

namespace Duration

def ofMillis (n : Nat) : Duration := ⟨n * 1000000⟩

/-- The whole milliseconds of a length of time. -/
def millis (d : Duration) : Nat := d.nanoseconds / 1000000

/-- Shorter or equally long. -/
instance : LE Duration := ⟨fun a b => a.nanoseconds ≤ b.nanoseconds⟩

/-- Shorter. -/
instance : LT Duration := ⟨fun a b => a.nanoseconds < b.nanoseconds⟩

instance (a b : Duration) : Decidable (a ≤ b) :=
  inferInstanceAs (Decidable (a.nanoseconds ≤ b.nanoseconds))

instance (a b : Duration) : Decidable (a < b) :=
  inferInstanceAs (Decidable (a.nanoseconds < b.nanoseconds))

end Duration

/-- Limits as someone asks for them. -/
structure Limits where
  maxIterations : UInt32
  maxTokens : UInt64
  maxExecutionMillis : Option UInt64
deriving DecidableEq

/-- Why limits are refused. -/
inductive LimitError where
  | zeroIterations
  | zeroTokens
  | zeroTime
deriving DecidableEq, Repr

def LimitError.message : LimitError → String
  | zeroIterations => "max_iterations must be > 0"
  | zeroTokens => "max_tokens must be > 0"
  | zeroTime => "max_execution_time_ms must be > 0 when set"

/-- Limits under which a run can begin: none of them is zero. -/
structure Budgets extends Limits where
  iterations_ne_zero : maxIterations ≠ 0
  tokens_ne_zero : maxTokens ≠ 0
  time_ne_zero : maxExecutionMillis ≠ some 0
deriving DecidableEq

/-- Why a run ends at the boundary between two iterations. -/
structure StopDecision where
  reason : StopReason
  /-- What is recorded as an incident, if the reason needs an explanation. -/
  detail : Option String
deriving DecidableEq

namespace Budgets

def ofLimits (limits : Limits) : Except LimitError Budgets :=
  if h : limits.maxIterations = 0 then .error .zeroIterations
  else if k : limits.maxTokens = 0 then .error .zeroTokens
  else if l : limits.maxExecutionMillis = some 0 then .error .zeroTime
  else .ok ⟨limits, h, k, l⟩

def timeLimit (b : Budgets) : Option Duration :=
  b.maxExecutionMillis.map fun n => .ofMillis n.toNat

/-- Some more tokens would take a run beyond its limit. -/
def wouldExceedTokens (b : Budgets) (s : RunState) (more : UInt64) : Bool :=
  b.maxTokens < addCapped s.tokenUsage.total more

/-- The explanation for a run that took too long. -/
def timeoutDetail (elapsed limit : Duration) : String :=
  s!"execution time limit exceeded: {elapsed.millis}ms elapsed, limit {limit.millis}ms"

/-- The time limit, if it is exceeded. -/
def exceededTime? (b : Budgets) (elapsed : Duration) : Option Duration :=
  b.timeLimit.filter fun limit => limit < elapsed

/-- Whether the run has to end now, and why. -/
def checkStop (b : Budgets) (s : RunState) (elapsed : Duration) (cancelled : Bool) :
    Option StopDecision :=
  if b.maxIterations ≤ s.iterationCount then some ⟨.maxIterations, none⟩
  else if b.maxTokens ≤ s.tokenUsage.total then some ⟨.budgetExhausted, none⟩
  else
    match b.exceededTime? elapsed with
    | some limit => some ⟨.error, some (timeoutDetail elapsed limit)⟩
    | none => if cancelled then some ⟨.cancelled, some "run cancelled"⟩ else none

end Budgets

end BudgetedRun
