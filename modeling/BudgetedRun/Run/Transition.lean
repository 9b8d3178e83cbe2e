import BudgetedRun.Run.Budget

/-!
# Steps of a run's life

What happens to the state of a run: an iteration with one of three outcomes, and the three ways to
end. A run that is over does not change any more.
-/

namespace BudgetedRun

/-- How one iteration went. -/
inductive StepOutcome where
  /-- The step is done; its tokens count and the next step is due. -/
  | succeeded (input output : UInt64)
  /-- The step failed; it is due again. -/
  | failed (message : String)
  /-- The step is done, but its tokens would have gone beyond the limit. -/
  | overBudget (input output : UInt64)
deriving DecidableEq

namespace StepOutcome

/-- What is recorded of an answer that costs too much. -/
def rejection (input output : UInt64) : String :=
  s!"step usage rejected: {addCapped input output} tokens " ++
    s!"({input} input, {output} output) would exceed the token budget"

end StepOutcome

namespace RunState

/-- One more iteration, as far as 32 bits count. -/
def nextIteration (n : UInt32) : UInt32 := if n = 0xFFFFFFFF then n else n + 1

def record (s : RunState) (incident : Incident) : RunState :=
  { s with errors := s.errors ++ [incident] }

/-- The effect of an outcome on a run that is not over, apart from the iteration count. -/
def settle (s : RunState) (stepId : String) (now : Timestamp) : StepOutcome → RunState
  | .succeeded input output =>
    { s with
      tokenUsage := s.tokenUsage.add input output
      currentStepIndex := s.currentStepIndex + 1 }
  | .failed message => s.record ⟨some stepId, message, now, true⟩
  | .overBudget input output =>
    s.record ⟨some stepId, StepOutcome.rejection input output, now, false⟩

/-- The state after an iteration on a step. -/
def advance (s : RunState) (stepId : String) (outcome : StepOutcome) (now : Timestamp) : RunState :=
  if s.isTerminal then s
  else { s with iterationCount := nextIteration s.iterationCount }.settle stepId now outcome

/-- End a run. -/
def finish (s : RunState) (status : RunStatus) (now : Timestamp) : RunState :=
  if s.isTerminal then s else { s with status := status, endTime := some now }

/-- The run reached the end of its plan. -/
def complete (s : RunState) (now : Timestamp) : RunState := s.finish .completed now

/-- The run ended at a boundary. -/
def stop (s : RunState) (decision : StopDecision) (now : Timestamp) : RunState :=
  if s.isTerminal then s
  else
    let s := match decision.detail with
      | some detail => s.record ⟨none, detail, now, false⟩
      | none => s
    { s with stopReason := some decision.reason }.finish .stopped now

/-- The run cannot go on. -/
def fail (s : RunState) (message : String) (now : Timestamp) : RunState :=
  if s.isTerminal then s else (s.record ⟨none, message, now, false⟩).finish .failed now

end RunState

end BudgetedRun
