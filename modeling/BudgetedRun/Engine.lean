import BudgetedRun.Plan.Prompt
import BudgetedRun.Provider
import BudgetedRun.Run.Log
import BudgetedRun.Run.Transition
import BudgetedRun.Store.Basic

/-!
# Running plans

A run goes through its plan step by step. Before each iteration it is asked whether the budgets
allow another one; then the provider is called for the step that is due, the outcome goes into the
state, and the state is saved. A step that fails is due again. A run fails only if a state cannot be
saved or is not consistent.

The world outside is an `Environment` in any monad. A run gives its result together with the list of
everything it did, in order: each call, each write and each entry of its log is an `Event`.
-/

namespace BudgetedRun

/-- What a run needs from outside. -/
structure Environment (m : Type → Type) where
  /-- The time of day. -/
  now : m Timestamp
  /-- The reading of a clock that only moves forward. -/
  steady : m Duration
  /-- Somebody wants the run to end. -/
  cancelled : m Bool
  /-- Ask the provider. -/
  call : Request → m Answer
  /-- Save a state. -/
  save : RunState → m (Except StoreError Unit)

/-- A plan that is to be run. -/
structure Job where
  plan : Plan
  runId : String
  repository : String

/-- What is read at the boundary between two iterations. -/
structure Boundary where
  cancelled : Bool
  elapsed : Duration
deriving DecidableEq

/-- One thing that a run did. -/
inductive Event where
  | logged (entry : LogEntry)
  /-- The provider was called: the state and the readings at the boundary before, the request and
  the answer. -/
  | called (state : RunState) (boundary : Boundary) (request : Request) (answer : Answer)
  /-- The store was asked to save a state. -/
  | wrote (state : RunState) (result : Except StoreError Unit)

/-- Why a run cannot go on. -/
inductive Fault where
  | inconsistent (violations : List Violation)
  | unsaved (e : StoreError)
deriving DecidableEq

def Fault.message : Fault → String
  | inconsistent violations =>
    s!"state invariant violated: {Violation.summary violations}"
  | unsaved e => s!"snapshot write failed: {e.message}"

/-- A run that could not go on, with the state it failed in. -/
structure RunFailure where
  runId : String
  fault : Fault
  state : RunState
deriving DecidableEq

def RunFailure.message (f : RunFailure) : String := s!"run '{f.runId}' failed: {f.fault.message}"

/-- Why there is no finished run. -/
inductive RunError where
  | invalidPlan (e : PlanError)
  | failed (f : RunFailure)
deriving DecidableEq

/-- How a run that can be finished ends. -/
inductive Finish where
  | complete
  | stop (decision : StopDecision)
deriving DecidableEq

/-- What comes after the last turn of a run. -/
inductive Ending where
  /-- The end of the run, from the last running state. -/
  | finish (last : RunState) (how : Finish)
  | fail (f : RunFailure)
deriving DecidableEq

/-- What comes after one turn of a run. -/
inductive Turn where
  /-- Another turn, from a saved state. -/
  | next (s : RunState)
  | last (e : Ending)
deriving DecidableEq

/-- All there is to know about a run that is over. -/
structure Report where
  result : Except RunError RunState
  events : List Event

namespace Engine

variable {m : Type → Type} [Monad m] (env : Environment m) (budgets : Budgets) (job : Job)

def log (level : LogLevel) (domain operation message : String) : m Event := do
  let timestamp ← env.now
  return .logged { runId := job.runId, level, domain, operation, message, timestamp }

def readBoundary (started : Duration) : m Boundary := do
  let cancelled ← env.cancelled
  let now ← env.steady
  return ⟨cancelled, ⟨now.nanoseconds - started.nanoseconds⟩⟩

/-- Fail a run from a running state. The failed state is saved too, if that can be done. -/
def failRun (s : RunState) (fault : Fault) : m (RunFailure × List Event) := do
  let noted ← log env job .error "store" "save" fault.message
  let failed := s.fail fault.message (← env.now)
  match ← env.save failed with
  | .ok () => return (⟨job.runId, fault, failed⟩, [noted, .wrote failed (.ok ())])
  | .error e =>
    let lost ← log env job .error "store" "save" s!"could not record failed state: {e.message}"
    return (⟨job.runId, fault, failed⟩, [noted, .wrote failed (.error e), lost])

/-- Save a state that is consistent. If that cannot be done, the run fails from the given running
state. -/
def persist (s running : RunState) : m (Except RunFailure Unit × List Event) := do
  match s.progressViolations job.plan.steps.length budgets with
  | [] =>
    match ← env.save s with
    | .ok () => return (.ok (), [.wrote s (.ok ())])
    | .error e =>
      let (failure, events) ← failRun env job running (.unsaved e)
      return (.error failure, .wrote s (.error e) :: events)
  | violations =>
    let (failure, events) ← failRun env job running (.inconsistent violations)
    return (.error failure, events)

/-- What the provider is asked for a step at some index. -/
def request (index : Nat) (step : Step) : Request where
  runId := job.runId
  planId := job.plan.id
  stepId := step.id
  kind := step.kind
  prompt := Prompt.ofStep job.plan (index + 1) step job.repository
  repository := job.repository

/-- The outcome of a step by the answer of the provider: tokens beyond the budget are rejected. -/
def outcome (s : RunState) : Answer → StepOutcome
  | .ok r =>
    if budgets.wouldExceedTokens s (addCapped r.inputTokens r.outputTokens) then
      .overBudget r.inputTokens r.outputTokens
    else .succeeded r.inputTokens r.outputTokens
  | .error message => .failed message

def logOutcome (stepId : String) : StepOutcome → m Event
  | .succeeded input output =>
    log env job .info "engine" "step"
      s!"step '{stepId}' completed ({input} input, {output} output tokens)"
  | .failed message => log env job .warn "engine" "step" s!"step '{stepId}' failed: {message}"
  | .overBudget _ _ =>
    log env job .warn "engine" "stop" s!"step '{stepId}' would exceed the token budget"

/-- The state after an iteration whose outcome is entered in the log. An answer that is beyond the
budget is entered after the state has changed, all else before. -/
def settle (s : RunState) (stepId : String) (o : StepOutcome) : m (RunState × Event) := do
  match o with
  | .overBudget _ _ =>
    let s := s.advance stepId o (← env.now)
    return (s, ← logOutcome env job stepId o)
  | _ =>
    let noted ← logOutcome env job stepId o
    return (s.advance stepId o (← env.now), noted)

/-- Save the state after an iteration, which decides whether there is another turn. -/
def checkpoint (s : RunState) (worked : List Event) : m (Turn × List Event) := do
  let (saved, events) ← persist env budgets job s s
  match saved with
  | .ok () => return (.next s, worked ++ events)
  | .error failure => return (.last (.fail failure), worked ++ events)

def iterate (s : RunState) (boundary : Boundary) (step : Step) : m (Turn × List Event) := do
  let asked := request job s.currentStepIndex.toNat step
  let answer ← env.call asked
  let o := outcome budgets s answer
  let (s', noted) ← settle env job s step.id o
  let events := [.called s boundary asked answer, noted]
  match o with
  | .overBudget _ _ => return (.last (.finish s' (.stop ⟨.budgetExhausted, none⟩)), events)
  | _ => checkpoint env budgets job s' events

/-- One turn of a run: the end of the plan, the end by a budget, or work on the step that is due. -/
def turn (started : Duration) (s : RunState) : m (Turn × List Event) := do
  match job.plan.steps[s.currentStepIndex.toNat]? with
  | none => return (.last (.finish s .complete), [])
  | some step =>
    let boundary ← readBoundary env started
    match budgets.checkStop s boundary.elapsed boundary.cancelled with
    | some decision =>
      let noted ← log env job .warn "engine" "stop"
        s!"stopping after {s.iterationCount} iterations: {decision.reason.name}"
      return (.last (.finish s (.stop decision)), [noted])
    | none => iterate env budgets job s boundary step

/-- Turn after turn, at most as many as the number says. -/
def turns (started : Duration) : Nat → RunState → m (Ending × List Event)
  | 0, s => return (.finish s (.stop ⟨.maxIterations, none⟩), [])
  | n + 1, s => do
    let (after, events) ← turn env budgets job started s
    match after with
    | .next s' =>
      let (ending, more) ← turns started n s'
      return (ending, events ++ more)
    | .last ending => return (ending, events)

/-- The state of a run that is finished. -/
def finishState (last : RunState) (how : Finish) (now : Timestamp) : RunState :=
  match how with
  | .complete => last.complete now
  | .stop decision => last.stop decision now

/-- Finish a run from its last running state. -/
def conclude (last : RunState) (how : Finish) : m Report := do
  let finished := finishState last how (← env.now)
  let (saved, events) ← persist env budgets job finished last
  match saved with
  | .error failure => return ⟨.error (.failed failure), events⟩
  | .ok () =>
    let noted ← log env job .info "engine" "finish"
      (s!"run {finished.status.name} after {finished.iterationCount} iterations, " ++
        s!"step {finished.currentStepIndex}/{job.plan.steps.length}, " ++
        s!"{finished.tokenUsage.total} tokens")
    return ⟨.ok finished, events ++ [noted]⟩

/-- Everything from the first turn on. There is one turn for each iteration that the budgets allow,
and one in which the run ends. -/
def proceed (started : Duration) (s : RunState) : m Report := do
  let (ending, events) ← turns env budgets job started (budgets.maxIterations.toNat + 1) s
  match ending with
  | .finish last how =>
    let report ← conclude env budgets job last how
    return ⟨report.result, events ++ report.events⟩
  | .fail failure => return ⟨.error (.failed failure), events⟩

/-- Begin a run in its first state, which is saved before the first turn. -/
def launch (started : Duration) (s : RunState) : m Report := do
  let noted ← log env job .info "engine" "start"
    (s!"starting plan '{job.plan.id}' with {job.plan.steps.length} steps " ++
      s!"in {job.repository}")
  let (saved, events) ← persist env budgets job s s
  match saved with
  | .error failure => return ⟨.error (.failed failure), noted :: events⟩
  | .ok () =>
    let report ← proceed env budgets job started s
    return ⟨report.result, noted :: events ++ report.events⟩

/-- Run a plan to its end. -/
def execute : m Report := do
  match job.plan.validate with
  | .error e => return ⟨.error (.invalidPlan e), []⟩
  | .ok () =>
    let started ← env.steady
    let now ← env.now
    launch env budgets job started (.start job.runId job.plan.id now)

end Engine

namespace Report

def log (r : Report) : List LogEntry :=
  r.events.filterMap fun
    | .logged entry => some entry
    | _ => none

def calls (r : Report) : List (Request × Answer) :=
  r.events.filterMap fun
    | .called _ _ request answer => some (request, answer)
    | _ => none

def writes (r : Report) : List (RunState × Except StoreError Unit) :=
  r.events.filterMap fun
    | .wrote s result => some (s, result)
    | _ => none

end Report

end BudgetedRun
