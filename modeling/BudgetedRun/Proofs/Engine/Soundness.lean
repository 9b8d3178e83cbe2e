import BudgetedRun.Proofs.Engine.Environment
import BudgetedRun.Proofs.Engine.Underway

/-!
# Every run tells a history

Whatever its surroundings do, a run gives a report that tells one of the histories of
`History.Runs` (`Engine.report_runs`). If the time of day never goes back, no reading in it is
before the start of the run (`Engine.report_runs_forward`).
-/

namespace BudgetedRun

namespace Engine

open History

variable {σ : Type} {env : Environment (StateM σ)} {clock : Timestamp → Timestamp → Prop}
  {good : σ → Prop} {budgets : Budgets} {job : Job} {s running last : RunState} {started : Duration}

theorem keeps_log (respects : env.Respects (clock s.startTime) good) (level : LogLevel)
    (domain operation message : String) :
    Keeps good (log env job level domain operation message)
      (Entry job level domain operation message) :=
  respects.keeps_now.bind fun timestamp _ => .pure (.intro timestamp)

theorem keeps_readBoundary (respects : env.Respects (clock s.startTime) good) :
    Keeps good (readBoundary env started) fun _ => True :=
  respects.keeps_cancelled.bind fun _ _ => respects.keeps_steady.bind fun _ _ => .pure trivial

/-- A run that fails does so as it can. -/
theorem keeps_failRun (respects : env.Respects (clock s.startTime) good) (fault : Fault) :
    Keeps good (failRun env job s fault) fun r => Fails clock job s fault r.1 r.2 := by
  refine (keeps_log respects _ _ _ _).bind fun noted entry => ?_
  refine respects.keeps_now.bind fun now reading => ?_
  refine (respects.keeps_save _).bind fun result _ => ?_
  cases result with
  | ok _ => exact .pure (.recorded reading entry)
  | error e =>
      exact (keeps_log respects _ _ _ _).bind fun lost again =>
        .pure (.unrecorded reading entry again)

theorem keeps_persist (respects : env.Respects (clock running.startTime) good) (s : RunState) :
    Keeps good (persist env budgets job s running) fun r =>
      Saves clock budgets job s running r.1 r.2 := by
  unfold persist
  split
  · rename_i consistent
    refine (respects.keeps_save _).bind fun result _ => ?_
    cases result with
    | ok _ => exact .pure (.kept consistent)
    | error e =>
        exact (keeps_failRun respects _).bind fun failed fails =>
          .pure (.broken (.unsaved consistent fails))
  · rename_i broken
    exact (keeps_failRun respects _).bind fun failed fails =>
      .pure (.broken (.inconsistent broken fails))

theorem keeps_logOutcome (respects : env.Respects (clock s.startTime) good) (stepId : String)
    (o : StepOutcome) : Keeps good (logOutcome env job stepId o) (OutcomeEntry job stepId o) := by
  cases o <;> exact keeps_log respects _ _ _ _

/-- The outcome of an answer is what the answer comes to. -/
theorem outcome_judges (budgets : Budgets) (s : RunState) (answer : Answer) :
    Judges budgets s answer (outcome budgets s answer) := by
  cases answer with
  | error message => exact .failed
  | ok r =>
      by_cases beyond : budgets.wouldExceedTokens s (addCapped r.inputTokens r.outputTokens) = true
      · rw [outcome, if_pos beyond]
        exact .overBudget beyond
      · rw [outcome, if_neg beyond]
        exact .succeeded ((Bool.not_eq_true _).mp beyond)

/-- An outcome advances the state at a time that the clock showed, and is logged. -/
theorem keeps_settle (respects : env.Respects (clock s.startTime) good) (stepId : String)
    (o : StepOutcome) :
    Keeps good (settle env job s stepId o) fun r =>
      ∃ now, clock s.startTime now ∧ r.1 = s.advance stepId o now ∧
        OutcomeEntry job stepId o r.2 := by
  cases o with
  | overBudget input output =>
      refine respects.keeps_now.bind fun now reading => ?_
      exact (keeps_logOutcome respects _ _).bind fun noted entry =>
        .pure ⟨now, reading, rfl, entry⟩
  | succeeded input output =>
      refine (keeps_logOutcome respects _ _).bind fun noted entry => ?_
      exact respects.keeps_now.bind fun now reading => .pure ⟨now, reading, rfl, entry⟩
  | failed message =>
      refine (keeps_logOutcome respects _ _).bind fun noted entry => ?_
      exact respects.keeps_now.bind fun now reading => .pure ⟨now, reading, rfl, entry⟩

/-- A running state is saved between turns as it can be. -/
theorem keeps_checkpoint {o : StepOutcome} {s' : RunState} {worked : List Event}
    (respects : env.Respects (clock s.startTime) good)
    (iterates : Iterates clock budgets job s o s' worked) (within : ¬o.IsOverBudget) :
    Keeps good (checkpoint env budgets job s' worked) fun r =>
      Turns clock budgets job s r.1 r.2 := by
  rw [← iterates.startTime_eq] at respects
  refine (keeps_persist respects s').bind fun saved saves => ?_
  obtain ⟨result, more⟩ := saved
  cases saves with
  | kept consistent => exact .pure (.next iterates within consistent)
  | broken breaks => exact .pure (.fail iterates within breaks)

/-- An iteration that the budgets allow is a turn that a run can take. -/
theorem keeps_iterate {boundary : Boundary} {step : Step}
    (respects : env.Respects (clock s.startTime) good)
    (due : job.plan.steps[s.currentStepIndex.toNat]? = some step)
    (allowed : budgets.checkStop s boundary.elapsed boundary.cancelled = none) :
    Keeps good (iterate env budgets job s boundary step) fun r =>
      Turns clock budgets job s r.1 r.2 := by
  refine (respects.keeps_call _).bind fun answer _ => ?_
  refine (keeps_settle respects _ _).bind fun settled ⟨now, reading, advanced, entry⟩ => ?_
  obtain ⟨s', noted⟩ := settled
  obtain rfl : s' = s.advance step.id (outcome budgets s answer) now := advanced
  have iterates := Iterates.intro due allowed (outcome_judges budgets s answer) reading entry
  generalize outcome budgets s answer = o at iterates ⊢
  cases o with
  | overBudget input output => exact .pure (.finish (.reject iterates trivial))
  | succeeded input output => exact keeps_checkpoint respects iterates not_false
  | failed message => exact keeps_checkpoint respects iterates not_false

/-- Every turn from a saved state is one of the three that there are. -/
theorem keeps_turn (respects : env.Respects (clock s.startTime) good) :
    Keeps good (turn env budgets job started s) fun r => Turns clock budgets job s r.1 r.2 := by
  unfold turn
  split
  · rename_i done
    exact .pure (.finish (.complete done))
  · rename_i step due
    refine (keeps_readBoundary respects).bind fun boundary _ => ?_
    split
    · rename_i decision decided
      exact (keeps_log respects _ _ _ _).bind fun noted entry =>
        .pure (.finish (.stop due decided entry))
    · rename_i allowed
      exact keeps_iterate respects due allowed

/-- The last running state of a run that began at some time. -/
def Since (start : Timestamp) : Ending → Prop
  | .finish last _ => last.startTime = start
  | .fail _ => True

/-- The turns of a run reach its end before their number is used up: each uses an iteration. -/
theorem keeps_turns {before : List Event} {n : Nat}
    (respects : env.Respects (clock s.startTime) good)
    (arrives : Arrives clock budgets job s before)
    (consistent : s.progressViolations job.plan.steps.length budgets = [])
    (enough : budgets.maxIterations.toNat < s.iterationCount.toNat + n) :
    Keeps good (turns env budgets job started n s) fun r =>
      Since s.startTime r.1 ∧
        Closes clock budgets job r.1 (before ++ [.wrote s (.ok ())] ++ r.2) := by
  induction n generalizing s before with
  -- No turns are left only if more iterations were counted than the budgets allow.
  | zero =>
      have within := UInt32.le_iff_toNat_le.mp arrives.iterationCount_le
      omega
  | succ n ih =>
      refine (keeps_turn respects).bind fun r turn => ?_
      obtain ⟨after, events⟩ := r
      cases turn with
      | next iterates within kept =>
          have further := Arrives.next arrives consistent iterates within
          have counted := (iterates.underway arrives.underway).2.1
          rw [← iterates.startTime_eq] at respects ⊢
          refine (ih respects further kept (by omega)).bind fun r ⟨since, closes⟩ => .pure ?_
          refine ⟨since, ?_⟩
          simpa only [List.append_assoc, List.append_eq] using closes
      | fail iterates within breaks =>
          have further := Arrives.next arrives consistent iterates within
          refine .pure ⟨trivial, ?_⟩
          simpa only [List.append_assoc, List.append_eq] using Closes.fail further breaks
      | finish leaves => exact .pure ⟨leaves.startTime_eq, .finish arrives consistent leaves⟩

/-- The end of a run is one that a run can have. -/
theorem keeps_conclude (how : Finish) (respects : env.Respects (clock last.startTime) good) :
    Keeps good (conclude env budgets job last how) (Concludes clock budgets job last how) := by
  refine respects.keeps_now.bind fun now reading => ?_
  refine (keeps_persist respects _).bind fun saved saves => ?_
  obtain ⟨result, events⟩ := saved
  cases saves with
  | kept consistent =>
      exact (keeps_log respects _ _ _ _).bind fun noted entry =>
        .pure (.finished reading rfl consistent entry)
  | broken breaks => exact .pure (.broken reading breaks)

/-- A run that goes on from a saved state makes a report that a run can give. -/
theorem keeps_proceed {before : List Event} (respects : env.Respects (clock s.startTime) good)
    (valid : job.plan.validate = .ok ()) (arrives : Arrives clock budgets job s before)
    (consistent : s.progressViolations job.plan.steps.length budgets = []) :
    Keeps good (proceed env budgets job started s) fun report =>
      Runs clock budgets job
        ⟨report.result, before ++ [.wrote s (.ok ())] ++ report.events⟩ := by
  refine (keeps_turns respects arrives consistent (by omega)).bind fun r ⟨since, closes⟩ => ?_
  obtain ⟨ending, events⟩ := r
  cases ending with
  | fail failure => exact .pure (.failed valid closes)
  | finish last how =>
      rw [← show last.startTime = s.startTime from since] at respects
      refine (keeps_conclude how respects).bind fun report concludes => .pure ?_
      simpa only [List.append_assoc] using closes.runs valid concludes

/-- From its first state on, a run gives a report that tells a history. -/
theorem keeps_launch {now : Timestamp} (respects : env.Respects (clock now) good)
    (valid : job.plan.validate = .ok ()) :
    Keeps good (launch env budgets job started (.start job.runId job.plan.id now))
      (Runs clock budgets job) := by
  let first := RunState.start job.runId job.plan.id now
  have respects : env.Respects (clock first.startTime) good := respects
  refine (keeps_log respects _ _ _ _).bind fun noted entry => ?_
  have arrives : Arrives clock budgets job first [noted] := .start entry
  refine (keeps_persist respects first).bind fun saved saves => ?_
  obtain ⟨result, events⟩ := saved
  cases saves with
  | kept consistent =>
      exact (keeps_proceed respects valid arrives consistent).bind fun report runs => .pure runs
  | broken breaks => exact .pure (.failed valid (.fail arrives breaks))

/-- A job with an invalid plan is refused, and nothing happens. -/
theorem execute_of_invalid {e : PlanError} (w : σ) (invalid : job.plan.validate = .error e) :
    (execute env budgets job).run w = (⟨.error (.invalidPlan e), []⟩, w) := by
  unfold execute
  rw [invalid]
  rfl

/-- A job with a valid plan is launched from its first state. -/
theorem execute_of_valid (w : σ) (valid : job.plan.validate = .ok ()) :
    (execute env budgets job).run w =
      let (started, w₁) := env.steady.run w
      let (now, w₂) := env.now.run w₁
      (launch env budgets job started (.start job.runId job.plan.id now)).run w₂ := by
  unfold execute
  rw [valid]
  rfl

variable (env budgets job)

/-- What a run reports that begins in some world. -/
def report (w : σ) : Report := ((execute env budgets job).run w).1

/-- Every run tells a history, whatever its surroundings do. -/
theorem report_runs (w : σ) : Runs (fun _ _ => True) budgets job (report env budgets job w) := by
  rw [report]
  cases valid : job.plan.validate with
  | error e =>
      rw [execute_of_invalid w valid]
      exact .refused valid
  | ok _ =>
      rw [execute_of_valid w valid]
      exact (keeps_launch env.respects_true valid _ trivial).1

/-- If the time of day never goes back, the history that a run tells has no time before its
start. -/
theorem report_runs_forward {w : σ} (forward : env.Forward w) :
    Runs (fun start now => start ≤ now) budgets job (report env budgets job w) := by
  rw [report]
  cases valid : job.plan.validate with
  | error e =>
      rw [execute_of_invalid w valid]
      exact .refused valid
  | ok _ =>
      rw [execute_of_valid w valid]
      exact (keeps_launch (forward.respects (.steady .refl)) valid _ .refl).1

end Engine

end BudgetedRun
