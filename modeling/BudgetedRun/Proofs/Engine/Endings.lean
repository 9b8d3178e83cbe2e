import BudgetedRun.Proofs.Engine.Accounts
import BudgetedRun.Proofs.Engine.Soundness
import BudgetedRun.Proofs.Plan.Validity

/-!
# Ends of runs

How a run can end, read off its history. The states that it hands to the store are consistent as
long as the tokens of its calls can be recorded; `History.Arrives.consistent_iff` and
`History.Leaves.consistent_iff` say so for the states it arrives at and for its finished state. The
state that it gives back has its accounts in order, whichever way it ended
(`History.Runs.accounts`).
-/

namespace BudgetedRun

/-- What the end of a run adds to the notes of its incidents. -/
inductive Closing (budgets : Budgets) : Except RunError RunState → List Note → Prop where
  | completed {s : RunState} (status : s.status = .completed) : Closing budgets (.ok s) []
  | exhausted {s : RunState} (status : s.status = .stopped)
      (reason : s.stopReason = some .maxIterations ∨ s.stopReason = some .budgetExhausted) :
      Closing budgets (.ok s) []
  | timedOut {s : RunState} {elapsed limit : Duration} (status : s.status = .stopped)
      (reason : s.stopReason = some .error) (limited : budgets.timeLimit = some limit)
      (exceeded : limit < elapsed) :
      Closing budgets (.ok s) [⟨none, Budgets.timeoutDetail elapsed limit, false⟩]
  | cancelled {s : RunState} (status : s.status = .stopped)
      (reason : s.stopReason = some .cancelled) :
      Closing budgets (.ok s) [⟨none, "run cancelled", false⟩]
  | failed {f : RunFailure} : Closing budgets (.error (.failed f)) [⟨none, f.fault.message, false⟩]

/-- A state that a run gives back is completed or stopped. -/
theorem Closing.completed_or_stopped {budgets : Budgets} {s : RunState} {notes : List Note}
    (closing : Closing budgets (.ok s) notes) : s.status = .completed ∨ s.status = .stopped := by
  cases closing with
  | completed status => exact .inl status
  | exhausted status => exact .inr status
  | timedOut status => exact .inr status
  | cancelled status => exact .inr status

/-- Nothing that is noted of the end of a run can be recovered from. -/
theorem Closing.unrecoverable {budgets : Budgets} {result : Except RunError RunState}
    {notes : List Note} (closing : Closing budgets result notes) :
    ∀ note ∈ notes, note.recoverable = false := by
  cases closing with
  | completed => exact List.forall_mem_nil _
  | exhausted => exact List.forall_mem_nil _
  | timedOut => exact List.forall_mem_singleton.mpr rfl
  | cancelled => exact List.forall_mem_singleton.mpr rfl
  | failed => exact List.forall_mem_singleton.mpr rfl

namespace History

open RunState

variable {clock : Timestamp → Timestamp → Prop} {budgets : Budgets} {job : Job}
  {s last running : RunState} {o : StepOutcome} {how : Finish} {failure : RunFailure}
  {events worked left : List Event} {now : Timestamp} {report : Report}

/-- No state that a run arrives at has spent more than the budgets allow. -/
theorem Arrives.total_le (arrives : Arrives clock budgets job s events) :
    s.tokenUsage.total ≤ budgets.maxTokens := by
  rw [UInt64.le_iff_toNat_le]
  -- At the greatest limit responses are accepted beyond it, but no count can show that.
  by_cases bounded : budgets.maxTokens.toNat < greatestCount
  · have spent := (arrives.covered bounded).tokensSpent_le
    rw [arrives.accounts.usage.total, ← tokensSpent_eq]
    omega
  · exact Nat.le_trans (toNat_le_greatestCount _) (Nat.not_lt.mp bounded)

/-- A state that a run arrives at is consistent exactly if the tokens so far can be recorded. -/
theorem Arrives.consistent_iff (arrives : Arrives clock budgets job s events)
    (named : job.runId ≠ "") (planned : job.plan.id ≠ "") :
    s.progressViolations job.plan.steps.length budgets = [] ↔
      Recordable (events.filterMap Event.call?) := by
  have underway := arrives.underway
  rw [← arrives.accounts.violations_eq_nil_iff (underway.framed named planned)]
  constructor
  · exact fun consistent => (of_progressViolations_eq_nil consistent).1
  · intro consistent
    refine progressViolations_eq_nil consistent arrives.index_le arrives.iterationCount_le ?_ ?_
    · rw [underway.stopReason]
      exact nofun
    · rw [underway.running]
      exact nofun

/-- A finished state is consistent exactly if the tokens of the calls within the budget can be
recorded. -/
theorem Leaves.consistent_iff (leaves : Leaves clock budgets job s last how left)
    (arrives : Arrives clock budgets job s events) (named : job.runId ≠ "")
    (planned : job.plan.id ≠ "") (inOrder : last.startTime ≤ now) :
    (Engine.finishState last how now).progressViolations job.plan.steps.length budgets = [] ↔
      Recordable (events.filterMap Event.call?) := by
  obtain ⟨underway, within, index, usage⟩ :=
    leaves.underway arrives.underway arrives.iterationCount_le
  obtain ⟨rejected, -, accounts, -⟩ := leaves.accounts arrives.underway arrives.accounts
  rw [← (accounts.finish underway.running how).violations_eq_nil_iff
    (underway.finish_framed named planned inOrder how)]
  refine ⟨fun consistent => (of_progressViolations_eq_nil consistent).1, fun consistent => ?_⟩
  have inPlan := arrives.index_le
  have affordable := arrives.total_le
  rw [← index] at inPlan
  rw [← usage] at affordable
  cases how with
  | complete =>
      rw [Engine.finishState, complete_of_running underway.running] at consistent ⊢
      refine progressViolations_eq_nil consistent inPlan within (fun _ => affordable) fun _ => ?_
      cases leaves with
      | complete done => exact Nat.le_antisymm inPlan (List.getElem?_eq_none_iff.mp done)
  | stop decision =>
      rw [Engine.finishState, stop_of_running underway.running] at consistent ⊢
      refine progressViolations_eq_nil consistent inPlan within (fun _ => affordable) ?_
      intro completed
      cases completed

/-- A run that leaves for its end gives back the finished state, with its note. -/
theorem Leaves.closing (leaves : Leaves clock budgets job s last how left)
    (running : last.status = .running) :
    Closing budgets (.ok (Engine.finishState last how now)) how.closing := by
  cases leaves with
  | complete done =>
      rw [Engine.finishState, complete_of_running running]
      exact .completed rfl
  | reject iterates beyond =>
      rw [Engine.finishState, stop_of_running running]
      exact .exhausted rfl (.inr rfl)
  | stop due decided entry =>
      rw [Engine.finishState, stop_of_running running]
      obtain ⟨-, rfl⟩ | ⟨-, rfl⟩ | ⟨limit, limited, exceeded, rfl⟩ | ⟨-, rfl⟩ :=
        Budgets.checkStop_eq_some decided
      · exact .exhausted rfl (.inl rfl)
      · exact .exhausted rfl (.inr rfl)
      · exact .timedOut rfl rfl limited exceeded
      · exact .cancelled rfl rfl

theorem Fails.fault_eq {fault : Fault} (fails : Fails clock job s fault failure events) :
    failure.fault = fault := by
  cases fails <;> rfl

/-- A run that fails makes no call. -/
theorem Fails.uncalled {fault : Fault} (fails : Fails clock job s fault failure events) :
    events.filterMap Event.call? = [] := by
  cases fails with
  | recorded reading entry =>
      obtain ⟨e, rfl⟩ := entry.exists_logged
      rfl
  | unrecorded reading entry again =>
      obtain ⟨e, rfl⟩ := entry.exists_logged
      obtain ⟨e', rfl⟩ := again.exists_logged
      rfl

/-- The state of a run that fails has failed at a time that the clock showed. -/
theorem Fails.state_eq {fault : Fault} (fails : Fails clock job s fault failure events) :
    ∃ now, clock s.startTime now ∧ failure.state = s.fail fault.message now := by
  cases fails with
  | recorded reading => exact ⟨_, reading, rfl⟩
  | unrecorded reading => exact ⟨_, reading, rfl⟩

theorem Breaks.uncalled (breaks : Breaks clock budgets job s running failure events) :
    events.filterMap Event.call? = [] := by
  cases breaks with
  | unsaved consistent fails => exact fails.uncalled
  | inconsistent broken fails => exact fails.uncalled

/-- The end of a run makes no call. -/
theorem Concludes.uncalled {how : Finish} {report : Report}
    (concludes : Concludes clock budgets job last how report) :
    report.events.filterMap Event.call? = [] := by
  cases concludes with
  | broken reading breaks => exact breaks.uncalled
  | finished reading finished_eq consistent entry =>
      obtain ⟨noted, rfl⟩ := entry.exists_logged
      rfl

/-- The end of a run gives back the last state, finished at some time, if any. -/
theorem Concludes.eq_finishState {how : Finish} {report : Report}
    (concludes : Concludes clock budgets job last how report) (result : report.result = .ok s) :
    ∃ now, s = Engine.finishState last how now := by
  cases concludes with
  | broken reading breaks => cases result
  | finished reading finished_eq consistent entry =>
      cases result
      exact ⟨_, finished_eq.symm⟩

/-- A run that breaks gives back its last running state as a failed one. -/
theorem Breaks.state_eq (breaks : Breaks clock budgets job s running failure events) :
    ∃ now, clock running.startTime now ∧
      failure.state = running.fail failure.fault.message now := by
  cases breaks with
  | unsaved consistent fails =>
      rw [fails.fault_eq]
      exact fails.state_eq
  | inconsistent broken fails =>
      rw [fails.fault_eq]
      exact fails.state_eq

/-- The calls of a run: some that were answered within the budget and, perhaps, a last one whose
answer was beyond it. -/
structure Billed (budgets : Budgets) (calls answered : List Call)
    (rejected : Option (Request × Response)) : Prop where
  calls_eq : calls = answered ++ rejectedCall rejected
  covered : budgets.maxTokens.toNat < greatestCount → Covered budgets.maxTokens.toNat answered
  beyond : ∀ request r, rejected = some (request, r) →
    budgets.maxTokens.toNat < min (tokensSpent answered + r.cost) greatestCount

theorem Closes.accounts (closes : Closes clock budgets job (.finish last how) events) :
    ∃ answered rejected, Billed budgets (events.filterMap Event.call?) answered rejected ∧
      Accounts answered rejected [] last ∧ last.status = .running ∧
      ∀ now, Closing budgets (.ok (Engine.finishState last how now)) how.closing := by
  have running := closes.underway.1.running
  cases closes with
  | finish arrives consistent leaves =>
      obtain ⟨rejected, called, accounts, beyond⟩ :=
        leaves.accounts arrives.underway arrives.accounts
      refine ⟨_, rejected, ⟨?_, arrives.covered, beyond⟩, accounts, running,
        fun _ => leaves.closing running⟩
      rw [Event.calls_append_write, called]

/-- Whatever happens, a run of a plan that can be run gives back a state, and its accounts are in
order. -/
theorem Runs.accounts (runs : Runs clock budgets job report) (valid : job.plan.validate = .ok ()) :
    ∃ s answered rejected closing, report.returned = some s ∧
      Billed budgets report.calls answered rejected ∧ Accounts answered rejected closing s ∧
      Closing budgets report.result closing := by
  cases runs with
  | refused invalid => rw [invalid] at valid; cases valid
  | @failed failure events _ closes =>
      cases closes with
      | fail arrives breaks =>
          obtain ⟨now, -, state⟩ := breaks.state_eq
          refine ⟨failure.state, _, none, _, rfl, ⟨?_, arrives.covered, nofun⟩, ?_, .failed⟩
          · rw [Report.calls_eq, List.filterMap_append, breaks.uncalled]
            rfl
          · rw [state]
            exact arrives.accounts.fail arrives.underway.running _
  | @unfinished last how now failure before events _ closes reading breaks =>
      obtain ⟨answered, rejected, billed, accounts, running, -⟩ := closes.accounts
      obtain ⟨now, -, state⟩ := breaks.state_eq
      refine ⟨failure.state, answered, rejected, _, rfl, ?_, ?_, .failed⟩
      · rw [Report.calls_eq, List.filterMap_append, breaks.uncalled, List.append_nil]
        exact billed
      · rw [state]
        exact accounts.fail running _
  | @finished last finished how now before noted _ closes reading finished_eq _ entry =>
      subst finished_eq
      obtain ⟨answered, rejected, billed, accounts, running, closing⟩ := closes.accounts
      obtain ⟨e, rfl⟩ := entry.exists_logged
      refine ⟨_, answered, rejected, _, rfl, ?_, accounts.finish running how, closing now⟩
      rw [Report.calls_eq, List.filterMap_append]
      exact (List.append_nil (before.filterMap Event.call?)).symm ▸ billed

/-- The state that a run gives back is its last running state, finished or failed. -/
theorem Runs.returned_cases (runs : Runs clock budgets job report)
    (returned : report.returned = some s) :
    ∃ last now, Underway job last ∧ last.iterationCount ≤ budgets.maxIterations ∧
      clock last.startTime now ∧
      ((∃ how, s = Engine.finishState last how now) ∨ ∃ message, s = last.fail message now) := by
  cases runs with
  | refused => cases returned
  | failed valid closes =>
      cases returned
      cases closes with
      | fail arrives breaks =>
          obtain ⟨now, reading, state⟩ := breaks.state_eq
          exact ⟨_, now, arrives.underway, arrives.iterationCount_le, reading, .inr ⟨_, state⟩⟩
  | unfinished valid closes _ breaks =>
      cases returned
      obtain ⟨underway, within⟩ := closes.underway
      obtain ⟨now, reading, state⟩ := breaks.state_eq
      exact ⟨_, now, underway, within, reading, .inr ⟨_, state⟩⟩
  | finished valid closes reading finished_eq =>
      cases returned
      obtain ⟨underway, within⟩ := closes.underway
      exact ⟨_, _, underway, within, reading, .inl ⟨_, finished_eq.symm⟩⟩

/-- The calls of a run are as many as the iterations of the state that it gives back. -/
theorem Runs.length_calls (runs : Runs clock budgets job report)
    (valid : job.plan.validate = .ok ()) (returned : report.returned = some s) :
    report.calls.length = s.iterationCount.toNat := by
  obtain ⟨s', answered, rejected, closing, returned', billed, accounts, -⟩ := runs.accounts valid
  rw [returned] at returned'
  cases returned'
  rw [billed.calls_eq, List.length_append, accounts.iterations]
  cases rejected <;> rfl

/-- No run has more iterations than its budget allows. -/
theorem Runs.iterationCount_le (runs : Runs clock budgets job report)
    (returned : report.returned = some s) : s.iterationCount ≤ budgets.maxIterations := by
  obtain ⟨last, now, underway, within, -, ⟨how, rfl⟩ | ⟨message, rfl⟩⟩ :=
    runs.returned_cases returned
  · cases how with
    | complete =>
        rw [Engine.finishState, complete_of_running underway.running]
        exact within
    | stop decision =>
        rw [Engine.finishState, stop_of_running underway.running]
        exact within
  · rw [fail_of_running underway.running]
    exact within

/-- All but the tokens of the state that a run gives back is consistent. -/
theorem Runs.returned_framed (runs : Runs (fun start now => start ≤ now) budgets job report)
    (named : job.runId ≠ "") (planned : job.plan.id ≠ "") (returned : report.returned = some s) :
    s.Framed := by
  obtain ⟨last, now, underway, -, inOrder, ⟨how, rfl⟩ | ⟨message, rfl⟩⟩ :=
    runs.returned_cases returned
  · exact underway.finish_framed named planned inOrder how
  · exact underway.fail_framed named planned inOrder message

end History

end BudgetedRun
