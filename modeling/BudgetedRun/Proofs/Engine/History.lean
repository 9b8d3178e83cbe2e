import BudgetedRun.Engine

/-!
# Histories of runs

What a run can do, said without its surroundings: which events can follow one another, in which
states, and how a run can end. A run arrives at a running state, saves it, works on the step that is
due and arrives at the next one, until it breaks, because a state cannot be saved, or leaves for its
end. `History.Runs` holds of a report exactly if it tells such a history. Everything that is shown
of all runs is shown by going through these cases.

Every reading of the time of day stands in the relation `clock` to the start of the run.
-/

namespace BudgetedRun

namespace Event

/-- The request and the answer, if the event is a call. -/
def call? : Event → Option (Request × Answer)
  | .called _ _ request answer => some (request, answer)
  | _ => none

/-- The state and what the store said, if the event is a write. -/
def write? : Event → Option (RunState × Except StoreError Unit)
  | .wrote s result => some (s, result)
  | _ => none

theorem write?_wrote (s : RunState) (result : Except StoreError Unit) :
    (wrote s result).write? = some (s, result) := rfl

theorem calls_append_wrote (events : List Event) (s : RunState)
    (result : Except StoreError Unit) :
    (events ++ [wrote s result]).filterMap call? = events.filterMap call? := by
  rw [List.filterMap_append]
  exact List.append_nil _

theorem calls_append_write (before after : List Event) (s : RunState)
    (result : Except StoreError Unit) :
    (before ++ [wrote s result] ++ after).filterMap call? =
      before.filterMap call? ++ after.filterMap call? := by
  rw [List.filterMap_append, calls_append_wrote]

theorem writes_append_write (before after : List Event) (s : RunState)
    (result : Except StoreError Unit) :
    (before ++ [wrote s result] ++ after).filterMap write? =
      before.filterMap write? ++ [(s, result)] ++ after.filterMap write? := by
  rw [List.filterMap_append, List.filterMap_append]
  rfl

end Event

namespace Report

theorem calls_eq (r : Report) : r.calls = r.events.filterMap Event.call? := rfl

theorem writes_eq (r : Report) : r.writes = r.events.filterMap Event.write? := rfl

/-- The state that a run gives back, finished or failed. -/
def returned (r : Report) : Option RunState :=
  match r.result with
  | .ok s => some s
  | .error (.failed f) => some f.state
  | .error (.invalidPlan _) => none

end Report

namespace StepOutcome

/-- The answer cost too much. -/
def IsOverBudget : StepOutcome → Prop
  | .overBudget _ _ => True
  | _ => False

end StepOutcome

namespace History

variable (clock : Timestamp → Timestamp → Prop) (budgets : Budgets) (job : Job)

/-- An entry of the log of the job, made at some time. -/
inductive Entry (level : LogLevel) (domain operation message : String) : Event → Prop where
  | intro (timestamp : Timestamp) :
      Entry level domain operation message
        (.logged { runId := job.runId, level, domain, operation, message, timestamp })

/-- The entry of the log for an outcome. -/
def OutcomeEntry (stepId : String) : StepOutcome → Event → Prop
  | .succeeded input output =>
    Entry job .info "engine" "step"
      s!"step '{stepId}' completed ({input} input, {output} output tokens)"
  | .failed message => Entry job .warn "engine" "step" s!"step '{stepId}' failed: {message}"
  | .overBudget _ _ =>
    Entry job .warn "engine" "stop" s!"step '{stepId}' would exceed the token budget"

theorem Entry.exists_logged {level : LogLevel} {domain operation message : String} {noted : Event}
    (entry : Entry job level domain operation message noted) : ∃ e, noted = .logged e := by
  cases entry with
  | intro => exact ⟨_, rfl⟩

theorem OutcomeEntry.exists_logged {stepId : String} {o : StepOutcome} {noted : Event}
    (entry : OutcomeEntry job stepId o noted) : ∃ e, noted = .logged e := by
  cases o <;> exact Entry.exists_logged job entry

/-- Failing a run from a running state: the fault is logged and the failed state is handed to the
store, once. -/
inductive Fails (s : RunState) (fault : Fault) : RunFailure → List Event → Prop where
  | recorded {now : Timestamp} {noted : Event} (reading : clock s.startTime now)
      (entry : Entry job .error "store" "save" fault.message noted) :
      Fails s fault ⟨job.runId, fault, s.fail fault.message now⟩
        [noted, .wrote (s.fail fault.message now) (.ok ())]
  | unrecorded {now : Timestamp} {noted lost : Event} {e : StoreError}
      (reading : clock s.startTime now)
      (entry : Entry job .error "store" "save" fault.message noted)
      (again : Entry job .error "store" "save" s!"could not record failed state: {e.message}"
        lost) :
      Fails s fault ⟨job.runId, fault, s.fail fault.message now⟩
        [noted, .wrote (s.fail fault.message now) (.error e), lost]

/-- A state that cannot be saved, so that the run fails from a running state. -/
inductive Breaks (s running : RunState) : RunFailure → List Event → Prop where
  | unsaved {e : StoreError} {failure : RunFailure} {events : List Event}
      (consistent : s.progressViolations job.plan.steps.length budgets = [])
      (fails : Fails clock job running (.unsaved e) failure events) :
      Breaks s running failure (.wrote s (.error e) :: events)
  | inconsistent {failure : RunFailure} {events : List Event}
      (broken : s.progressViolations job.plan.steps.length budgets ≠ [])
      (fails : Fails clock job running
        (.inconsistent (s.progressViolations job.plan.steps.length budgets)) failure events) :
      Breaks s running failure events

/-- Saving a state, or failing from a running one. -/
inductive Saves (s running : RunState) : Except RunFailure Unit → List Event → Prop where
  | kept (consistent : s.progressViolations job.plan.steps.length budgets = []) :
      Saves s running (.ok ()) [.wrote s (.ok ())]
  | broken {failure : RunFailure} {events : List Event}
      (breaks : Breaks clock budgets job s running failure events) :
      Saves s running (.error failure) events

/-- What an answer comes to: a failure, or a response that the tokens of the budget cover or not. -/
inductive Judges (s : RunState) : Answer → StepOutcome → Prop where
  | succeeded {r : Response}
      (covered : budgets.wouldExceedTokens s (addCapped r.inputTokens r.outputTokens) = false) :
      Judges s (.ok r) (.succeeded r.inputTokens r.outputTokens)
  | failed {message : String} : Judges s (.error message) (.failed message)
  | overBudget {r : Response}
      (beyond : budgets.wouldExceedTokens s (addCapped r.inputTokens r.outputTokens) = true) :
      Judges s (.ok r) (.overBudget r.inputTokens r.outputTokens)

/-- Work on the step that is due, which the budgets allow: the provider is called, and its answer
leads to an outcome and to the next state. -/
inductive Iterates (s : RunState) : StepOutcome → RunState → List Event → Prop where
  | intro {step : Step} {boundary : Boundary} {answer : Answer} {o : StepOutcome}
      {now : Timestamp} {noted : Event}
      (due : job.plan.steps[s.currentStepIndex.toNat]? = some step)
      (allowed : budgets.checkStop s boundary.elapsed boundary.cancelled = none)
      (judges : Judges budgets s answer o) (reading : clock s.startTime now)
      (entry : OutcomeEntry job step.id o noted) :
      Iterates s o (s.advance step.id o now)
        [.called s boundary (Engine.request job s.currentStepIndex.toNat step) answer, noted]

/-- A run arrives at a running state, which has not been saved yet. -/
inductive Arrives : RunState → List Event → Prop where
  | start {now : Timestamp} {noted : Event}
      (entry : Entry job .info "engine" "start"
        (s!"starting plan '{job.plan.id}' with {job.plan.steps.length} steps " ++
          s!"in {job.repository}") noted) :
      Arrives (.start job.runId job.plan.id now) [noted]
  | next {s s' : RunState} {o : StepOutcome} {before worked : List Event}
      (arrives : Arrives s before)
      (consistent : s.progressViolations job.plan.steps.length budgets = [])
      (iterates : Iterates clock budgets job s o s' worked) (within : ¬o.IsOverBudget) :
      Arrives s' (before ++ [.wrote s (.ok ())] ++ worked)

/-- A run leaves a saved state for its end, from the last running state. -/
inductive Leaves (s : RunState) : RunState → Finish → List Event → Prop where
  | complete (done : job.plan.steps[s.currentStepIndex.toNat]? = none) : Leaves s s .complete []
  | stop {step : Step} {boundary : Boundary} {decision : StopDecision} {noted : Event}
      (due : job.plan.steps[s.currentStepIndex.toNat]? = some step)
      (decided : budgets.checkStop s boundary.elapsed boundary.cancelled = some decision)
      (entry : Entry job .warn "engine" "stop"
        s!"stopping after {s.iterationCount} iterations: {decision.reason.name}" noted) :
      Leaves s s (.stop decision) [noted]
  | reject {last : RunState} {o : StepOutcome} {worked : List Event}
      (iterates : Iterates clock budgets job s o last worked) (beyond : o.IsOverBudget) :
      Leaves s last (.stop ⟨.budgetExhausted, none⟩) worked

/-- One turn from a saved state: another state is saved, the run breaks, or it leaves for its
end. -/
inductive Turns (s : RunState) : Turn → List Event → Prop where
  | next {s' : RunState} {o : StepOutcome} {worked : List Event}
      (iterates : Iterates clock budgets job s o s' worked) (within : ¬o.IsOverBudget)
      (consistent : s'.progressViolations job.plan.steps.length budgets = []) :
      Turns s (.next s') (worked ++ [.wrote s' (.ok ())])
  | fail {s' : RunState} {o : StepOutcome} {failure : RunFailure} {worked events : List Event}
      (iterates : Iterates clock budgets job s o s' worked) (within : ¬o.IsOverBudget)
      (breaks : Breaks clock budgets job s' s' failure events) :
      Turns s (.last (.fail failure)) (worked ++ events)
  | finish {last : RunState} {how : Finish} {left : List Event}
      (leaves : Leaves clock budgets job s last how left) : Turns s (.last (.finish last how)) left

/-- Everything up to the last turn of a run. -/
inductive Closes : Ending → List Event → Prop where
  | fail {s : RunState} {failure : RunFailure} {before events : List Event}
      (arrives : Arrives clock budgets job s before)
      (breaks : Breaks clock budgets job s s failure events) :
      Closes (.fail failure) (before ++ events)
  | finish {s last : RunState} {how : Finish} {before left : List Event}
      (arrives : Arrives clock budgets job s before)
      (consistent : s.progressViolations job.plan.steps.length budgets = [])
      (leaves : Leaves clock budgets job s last how left) :
      Closes (.finish last how) (before ++ [.wrote s (.ok ())] ++ left)

/-- The end of a run, from its last running state: the finished state is saved and logged, or the
run breaks. -/
inductive Concludes (last : RunState) (how : Finish) : Report → Prop where
  | broken {now : Timestamp} {failure : RunFailure} {events : List Event}
      (reading : clock last.startTime now)
      (breaks : Breaks clock budgets job (Engine.finishState last how now) last failure events) :
      Concludes last how ⟨.error (.failed failure), events⟩
  | finished {finished : RunState} {now : Timestamp} {noted : Event}
      (reading : clock last.startTime now)
      (finished_eq : Engine.finishState last how now = finished)
      (consistent : finished.progressViolations job.plan.steps.length budgets = [])
      (entry : Entry job .info "engine" "finish"
        (s!"run {finished.status.name} after {finished.iterationCount} iterations, " ++
          s!"step {finished.currentStepIndex}/{job.plan.steps.length}, " ++
          s!"{finished.tokenUsage.total} tokens") noted) :
      Concludes last how ⟨.ok finished, [.wrote finished (.ok ()), noted]⟩

/-- The reports that a run can give. -/
inductive Runs : Report → Prop where
  | refused {e : PlanError} (invalid : job.plan.validate = .error e) :
      Runs ⟨.error (.invalidPlan e), []⟩
  | failed {failure : RunFailure} {events : List Event}
      (valid : job.plan.validate = .ok ())
      (closes : Closes clock budgets job (.fail failure) events) :
      Runs ⟨.error (.failed failure), events⟩
  | unfinished {last : RunState} {how : Finish} {now : Timestamp} {failure : RunFailure}
      {before events : List Event} (valid : job.plan.validate = .ok ())
      (closes : Closes clock budgets job (.finish last how) before)
      (reading : clock last.startTime now)
      (breaks : Breaks clock budgets job (Engine.finishState last how now) last failure events) :
      Runs ⟨.error (.failed failure), before ++ events⟩
  | finished {last finished : RunState} {how : Finish} {now : Timestamp}
      {before : List Event} {noted : Event} (valid : job.plan.validate = .ok ())
      (closes : Closes clock budgets job (.finish last how) before)
      (reading : clock last.startTime now)
      (finished_eq : Engine.finishState last how now = finished)
      (consistent : finished.progressViolations job.plan.steps.length budgets = [])
      (entry : Entry job .info "engine" "finish"
        (s!"run {finished.status.name} after {finished.iterationCount} iterations, " ++
          s!"step {finished.currentStepIndex}/{job.plan.steps.length}, " ++
          s!"{finished.tokenUsage.total} tokens") noted) :
      Runs ⟨.ok finished, before ++ [.wrote finished (.ok ()), noted]⟩

variable {clock budgets job} in
/-- What a run does up to its last turn and at its end makes a report that it can give. -/
theorem Closes.runs {last : RunState} {how : Finish} {before : List Event} {report : Report}
    (closes : Closes clock budgets job (.finish last how) before)
    (valid : job.plan.validate = .ok ()) (concludes : Concludes clock budgets job last how report) :
    Runs clock budgets job ⟨report.result, before ++ report.events⟩ := by
  cases concludes with
  | broken reading breaks => exact .unfinished valid closes reading breaks
  | finished reading finished_eq consistent entry =>
      exact .finished valid closes reading finished_eq consistent entry

end History

end BudgetedRun
