import BudgetedRun.Proofs.Engine.Departures
import BudgetedRun.Proofs.Engine.Effects
import BudgetedRun.Proofs.Engine.Simulation

/-!
# The order of the steps

The steps that a run commits are the first ones of its plan, each once and in order. At any point
they are as many as the index of its state says, so every call is for the next one, also after a
call that failed. A run is complete exactly if they are all the steps there are.
-/

namespace BudgetedRun

namespace Event

/-- The step that is committed, if the event is an answer that the tokens of the budget cover. -/
def committed? (budgets : Budgets) : Event → Option String
  | called s _ request (.ok r) =>
    if budgets.wouldExceedTokens s (addCapped r.inputTokens r.outputTokens) then none
    else some request.stepId
  | _ => none

theorem committed_eq_nil {budgets : Budgets} {events : List Event}
    (uncalled : events.filterMap call? = []) : events.filterMap (committed? budgets) = [] := by
  rw [List.filterMap_eq_nil_iff] at uncalled ⊢
  intro e member
  have noCall := uncalled e member
  cases e with
  | called s boundary request answer => cases noCall
  | logged entry => rfl
  | wrote s result => rfl

end Event

namespace History

open RunState

/-- The ids of the first steps of a plan. -/
def firstSteps (job : Job) (n : Nat) : List String := (job.plan.steps.take n).map (·.id)

variable {clock : Timestamp → Timestamp → Prop} {budgets : Budgets} {job : Job}
  {s s' last running : RunState} {o : StepOutcome} {how : Finish} {failure : RunFailure}
  {events worked left : List Event} {report : Report}

theorem length_firstSteps {n : Nat} (within : n ≤ job.plan.steps.length) :
    (firstSteps job n).length = n := by
  rw [firstSteps, List.length_map, List.length_take]
  exact Nat.min_eq_left within

/-- The next step comes after the first ones. -/
theorem firstSteps_succ {n : Nat} {step : Step} (due : job.plan.steps[n]? = some step) :
    firstSteps job (n + 1) = firstSteps job n ++ [step.id] := by
  rw [firstSteps, List.take_add_one, due, List.map_append]
  rfl

/-- A step is not among those before it. -/
theorem not_mem_firstSteps {n : Nat} {step : Step} (valid : job.plan.validate = .ok ())
    (due : job.plan.steps[n]? = some step) : step.id ∉ firstSteps job n := by
  obtain ⟨-, -, -, distinct⟩ := Plan.validate_eq_ok_iff.mp valid
  have inOrder : (firstSteps job (n + 1)).Nodup :=
    distinct.sublist ((List.take_sublist _ _).map _)
  rw [firstSteps_succ due, List.nodup_append] at inOrder
  intro member
  exact inOrder.2.2 _ member _ (List.mem_singleton_self _) rfl

/-- Work on a step commits it exactly if the index goes up. -/
theorem Iterates.committed_eq (iterates : Iterates clock budgets job s o s' worked)
    (within : ¬o.IsOverBudget) (arrives : Arrives clock budgets job s events) :
    firstSteps job s'.currentStepIndex.toNat =
      firstSteps job s.currentStepIndex.toNat ++ worked.filterMap (Event.committed? budgets) := by
  have running := arrives.underway.running
  cases iterates with
  | intro due allowed judges reading entry =>
      obtain ⟨e, rfl⟩ := entry.exists_logged
      cases judges with
      | succeeded covered =>
          rw [advance_succeeded running, arrives.accounts.toNat_index_succ, firstSteps_succ due]
          simp [Event.committed?, covered, Engine.request]
      | failed =>
          rw [advance_failed running]
          exact (List.append_nil _).symm
      | overBudget beyond => exact absurd trivial within

/-- Where a run arrives, it has committed the steps before the one that is due. -/
theorem Arrives.committed_eq (arrives : Arrives clock budgets job s events) :
    events.filterMap (Event.committed? budgets) = firstSteps job s.currentStepIndex.toNat := by
  induction arrives with
  | start entry =>
      obtain ⟨e, rfl⟩ := entry.exists_logged
      rfl
  | next arrives consistent iterates within ih =>
      rw [List.filterMap_append, List.filterMap_append, ih, iterates.committed_eq within arrives]
      exact congrArg (· ++ _) (List.append_nil _)

/-- A run that leaves for its end commits no step. -/
theorem Leaves.committed_eq_nil (leaves : Leaves clock budgets job s last how left) :
    left.filterMap (Event.committed? budgets) = [] := by
  cases leaves with
  | complete done => rfl
  | stop due decided entry =>
      obtain ⟨e, rfl⟩ := entry.exists_logged
      rfl
  | reject iterates beyond =>
      cases iterates with
      | intro due allowed judges reading entry =>
          obtain ⟨e, rfl⟩ := entry.exists_logged
          cases judges with
          | succeeded covered => exact beyond.elim
          | failed => exact beyond.elim
          | overBudget excess => simp [Event.committed?, excess]

/-- A run commits its first steps, up to the index of its last running state. -/
theorem Closes.committed_eq (closes : Closes clock budgets job (.finish last how) events) :
    events.filterMap (Event.committed? budgets) = firstSteps job last.currentStepIndex.toNat := by
  cases closes with
  | finish arrives consistent leaves =>
      obtain ⟨-, -, index, -⟩ := leaves.underway arrives.underway arrives.iterationCount_le
      rw [List.filterMap_append, List.filterMap_append, leaves.committed_eq_nil,
        arrives.committed_eq, index]
      exact (List.append_nil _).trans (List.append_nil _)

/-- The end of a run leaves its index as it is. -/
theorem finishState_index (running : last.status = .running) (how : Finish) (now : Timestamp) :
    (Engine.finishState last how now).currentStepIndex = last.currentStepIndex := by
  cases how with
  | complete => rw [Engine.finishState, complete_of_running running]
  | stop decision => rw [Engine.finishState, stop_of_running running]

/-- A run that breaks has the index of its running state. -/
theorem Breaks.index_eq (breaks : Breaks clock budgets job s running failure events)
    (underway : Underway job running) :
    failure.state.currentStepIndex = running.currentStepIndex := by
  obtain ⟨now, -, state⟩ := breaks.state_eq
  rw [state, fail_of_running underway.running]

/-- The steps that a run has committed in the end are the first ones of its plan. -/
theorem Runs.committed_eq (runs : Runs clock budgets job report)
    (valid : job.plan.validate = .ok ()) :
    ∃ s, report.returned = some s ∧
      report.events.filterMap (Event.committed? budgets) =
        firstSteps job s.currentStepIndex.toNat := by
  cases runs with
  | refused invalid => rw [invalid] at valid; cases valid
  | failed _ closes =>
      cases closes with
      | fail arrives breaks =>
          refine ⟨_, rfl, ?_⟩
          rw [List.filterMap_append, Event.committed_eq_nil breaks.uncalled, List.append_nil,
            arrives.committed_eq, breaks.index_eq arrives.underway]
  | unfinished _ closes reading breaks =>
      refine ⟨_, rfl, ?_⟩
      rw [List.filterMap_append, Event.committed_eq_nil breaks.uncalled, List.append_nil,
        closes.committed_eq, breaks.index_eq closes.underway.1]
  | finished _ closes reading finished_eq consistent entry =>
      subst finished_eq
      obtain ⟨e, rfl⟩ := entry.exists_logged
      refine ⟨_, rfl, ?_⟩
      rw [List.filterMap_append, closes.committed_eq,
        finishState_index closes.underway.1.running]
      exact List.append_nil _

/-- A run does not end further than the end of its plan. -/
theorem Closes.index_le (closes : Closes clock budgets job (.finish last how) events) :
    last.currentStepIndex.toNat ≤ job.plan.steps.length := by
  cases closes with
  | finish arrives consistent leaves =>
      obtain ⟨-, -, index, -⟩ := leaves.underway arrives.underway arrives.iterationCount_le
      rw [index]
      exact arrives.index_le

/-- The state that a run gives back is not beyond the end of the plan. -/
theorem Runs.index_le (runs : Runs clock budgets job report) (returned : report.returned = some s) :
    s.currentStepIndex.toNat ≤ job.plan.steps.length := by
  cases runs with
  | refused => cases returned
  | failed valid closes =>
      cases returned
      cases closes with
      | fail arrives breaks =>
          rw [breaks.index_eq arrives.underway]
          exact arrives.index_le
  | unfinished valid closes reading breaks =>
      cases returned
      rw [breaks.index_eq closes.underway.1]
      exact closes.index_le
  | finished valid closes reading finished_eq =>
      cases returned
      rw [← finished_eq, finishState_index closes.underway.1.running]
      exact closes.index_le

/-- A run that finishes is complete exactly if its index has come to the end of the plan. -/
theorem Runs.completed_iff (runs : Runs clock budgets job report)
    (finished : report.result = .ok s) :
    s.currentStepIndex.toNat ≤ job.plan.steps.length ∧
      (s.status = .completed ↔ s.currentStepIndex.toNat = job.plan.steps.length) := by
  cases runs with
  | refused => cases finished
  | failed => cases finished
  | unfinished => cases finished
  | @finished last finished how now before noted valid closes reading finished_eq =>
      cases finished
      subst finished_eq
      have running := closes.underway.1.running
      rw [finishState_index running]
      cases closes with
      | finish arrives consistent leaves =>
          obtain ⟨-, -, index, -⟩ := leaves.underway arrives.underway arrives.iterationCount_le
          have inPlan := arrives.index_le
          rw [index]
          refine ⟨inPlan, ?_⟩
          cases leaves with
          | complete done =>
              rw [Engine.finishState, complete_of_running running]
              exact iff_of_true rfl (Nat.le_antisymm inPlan (List.getElem?_eq_none_iff.mp done))
          | stop due decided entry =>
              rw [Engine.finishState, stop_of_running running]
              obtain ⟨below, -⟩ := List.getElem?_eq_some_iff.mp due
              refine iff_of_false (fun completed => ?_) (Nat.ne_of_lt below)
              cases completed
          | reject iterates beyond =>
              rw [Engine.finishState, stop_of_running running]
              cases iterates with
              | intro due =>
                  obtain ⟨below, -⟩ := List.getElem?_eq_some_iff.mp due
                  refine iff_of_false (fun completed => ?_) (Nat.ne_of_lt below)
                  cases completed

end History

namespace Engine

open History

variable {σ : Type} {env : Environment (StateM σ)} {budgets : Budgets} {job : Job}

/-- The calls of a run of a plan that can be run go through its steps in order. Each is made in a
state whose index counts the steps that were committed before, for the step of that index, with its
prompt and under the ids and the repository of the job, and that step has not been committed yet.
After a call that failed, the next is the same. In the end the steps that were committed are the
first ones of the plan, and a run that finishes is complete exactly if they are all of them,
whatever is left of the budgets then and whoever wants it to end. -/
theorem execute_calls_in_plan_order (valid : job.plan.validate = .ok ()) (w : σ) :
    let report := report env budgets job w
    Effects env (env.steady.run w).1 (env.steady.run w).2 report.events
      ((execute env budgets job).run w).2 ∧
    (∀ (before : List Event) (s : RunState) (boundary : Boundary) (request : Request)
        (answer : Answer) (after : List Event),
      report.events = before ++ .called s boundary request answer :: after →
      let committed := before.filterMap (Event.committed? budgets)
      s.currentStepIndex.toNat = committed.length ∧
      ∃ step, job.plan.steps[committed.length]? = some step ∧
        request.stepId = step.id ∧ request.kind = step.kind ∧
        job.plan.prompt committed.length job.repository = .ok request.prompt ∧
        request.runId = job.runId ∧ request.planId = job.plan.id ∧
        request.repository = job.repository ∧ request.stepId ∉ committed) ∧
    (∀ (earlier : List Call) (request : Request) (message : String) (next : Request)
        (answer : Answer) (later : List Call),
      report.calls = earlier ++ (request, .error message) :: (next, answer) :: later →
      next = request) ∧
    (∃ s, report.returned = some s ∧
      report.events.filterMap (Event.committed? budgets) =
        (job.plan.steps.take s.currentStepIndex.toNat).map (·.id)) ∧
    (∀ s, report.result = .ok s →
      (s.status = .completed ↔
        report.events.filterMap (Event.committed? budgets) = job.plan.steps.map (·.id))) := by
  have runs := report_runs env budgets job w
  obtain ⟨returned, isReturned, all⟩ := runs.committed_eq valid
  refine ⟨execute_effects env budgets valid w, ?_, ?_, ⟨returned, isReturned, all⟩, ?_⟩
  · intro before s boundary request answer after split
    cases runs.departures before s boundary request answer after split with
    | @intro earlier s boundary step arrives consistent due allowed =>
        have committed : (earlier ++ [Event.wrote s (.ok ())]).filterMap
            (Event.committed? budgets) = firstSteps job s.currentStepIndex.toNat := by
          rw [List.filterMap_append, arrives.committed_eq]
          exact List.append_nil _
        have length := length_firstSteps arrives.index_le
        simp only [committed, length]
        refine ⟨trivial, step, due, rfl, rfl, ?_, rfl, rfl, rfl, not_mem_firstSteps valid due⟩
        rw [Plan.prompt, due]
        rfl
  · intro earlier request message next answer later split
    obtain ⟨step, due, rfl⟩ := runs.request_eq split
    rw [← List.singleton_append, ← List.append_assoc] at split
    obtain ⟨again, dueAgain, rfl⟩ := runs.request_eq split
    rw [responses_append_error] at dueAgain ⊢
    rw [due] at dueAgain
    cases dueAgain
    rfl
  · intro s finished
    have same : s = returned := by
      rw [Report.returned, finished] at isReturned
      exact Option.some.inj isReturned
    subst same
    obtain ⟨inPlan, completed⟩ := runs.completed_iff finished
    rw [completed, all]
    constructor
    · intro atEnd
      rw [firstSteps, atEnd, List.take_length]
    · intro everything
      have lengths := congrArg List.length everything
      rwa [length_firstSteps inPlan, List.length_map] at lengths

/-- A rehearsal in which the last step is committed with the last iteration and the last tokens,
while somebody wants the run to end, is complete. -/
theorem rehearsal_in_plan_order :
    let report := report World.environment .scant .rehearsal
      { World.rehearsal [.ok (3, 4), .error "no answer", .ok (5, 6)] .none with
        cancelOnCall := some 3 }
    ∃ s, report.result = .ok s ∧ s.status = .completed := by
  intro report
  have committed : report.events.filterMap (Event.committed? .scant) =
      Job.rehearsal.plan.steps.map (·.id) := by decide +kernel
  have finishes : report.result.toOption.isSome = true := by decide +kernel
  obtain ⟨s, finished⟩ := Option.isSome_iff_exists.mp finishes
  obtain ⟨-, -, -, -, completed⟩ := execute_calls_in_plan_order Job.rehearsal_valid _
  have isOk : report.result = .ok s := by
    cases result : report.result with
    | error e => rw [result] at finished; cases finished
    | ok s' => rw [result] at finished; cases finished; rfl
  exact ⟨s, isOk, (completed s isOk).mpr committed⟩

end Engine

end BudgetedRun
