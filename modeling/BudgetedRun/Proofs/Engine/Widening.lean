import BudgetedRun.Proofs.Engine.Answers
import BudgetedRun.Proofs.Engine.Determinism
import BudgetedRun.Proofs.Engine.Simulation

/-!
# Wider budgets

Of two runs of a job with the same answers, neither of which has a time limit or is cancelled, the
one with the wider budgets comes at least as far: it makes the calls of the other one first, and it
ends earlier only where the other one could not have gone on either (`Engine.execute_widened`).
-/

namespace BudgetedRun

theorem tokensSpent_append (calls more : List Call) :
    tokensSpent (calls ++ more) = tokensSpent calls + tokensSpent more := by
  simp [tokensSpent, responses]

section Accounts

variable {answered answered' : List Call} {rejected rejected' : Option (Request × Response)}
  {closing closing' : List Note} {s s' : RunState}

/-- The recoverable incidents are those of the calls that failed. -/
theorem Accounts.recoverable_eq (accounts : Accounts answered rejected closing s)
    (grave : ∀ note ∈ closing, note.recoverable = false) :
    (s.errors.filter (·.recoverable)).map Incident.note = answered.filterMap Call.failure? := by
  have failures : (answered.filterMap Call.failure?).filter (·.recoverable) =
      answered.filterMap Call.failure? := by
    rw [List.filter_eq_self]
    intro note member
    obtain ⟨⟨request, answer⟩, -, noted⟩ := List.mem_filterMap.mp member
    cases answer with
    | ok r => cases noted
    | error message =>
        cases noted
        rfl
  have rest : closing.filter (·.recoverable) = [] := by
    rw [List.filter_eq_nil_iff]
    exact fun note member => by simp [grave note member]
  have notes : (s.errors.map Incident.note).filter (·.recoverable) =
      answered.filterMap Call.failure? := by
    rw [accounts.incidents, List.filter_append, List.filter_append, failures, rest, List.append_nil]
    -- A rejection is not recoverable.
    cases rejected with
    | none => exact List.append_nil _
    | some rejection => exact List.append_nil _
  rw [List.filter_map] at notes
  exact notes

/-- A state that accounts for more calls is further. -/
theorem Accounts.further (accounts : Accounts answered rejected closing s)
    (accounts' : Accounts answered' rejected' closing' s') (more : answered <+: answered') :
    s.currentStepIndex ≤ s'.currentStepIndex ∧ s.tokenUsage.total ≤ s'.tokenUsage.total := by
  obtain ⟨rest, rfl⟩ := more
  constructor
  · rw [UInt64.le_iff_toNat_le, accounts.index, accounts'.index, responses, responses,
      List.filterMap_append, List.length_append]
    exact Nat.le_add_right _ _
  · rw [UInt64.le_iff_toNat_le, accounts.usage.total, accounts'.usage.total, ← tokensSpent_eq,
      ← tokensSpent_eq, tokensSpent_append]
    omega

end Accounts

/-- What the end of a run notes cannot be recovered from. -/
theorem Finish.closing_unrecoverable (how : Finish) :
    ∀ note ∈ how.closing, note.recoverable = false := by
  intro note member
  cases how with
  | complete => cases member
  | stop decision =>
      obtain ⟨reason, _ | detail⟩ := decision
      · cases member
      · rw [List.mem_singleton.mp member]

namespace History

open RunState

variable {clock clock' : Timestamp → Timestamp → Prop} {budgets budgets' : Budgets} {job : Job}
  {t : RunState} {second : List Event} {calls calls' answered answered' : List Call}
  {rejected rejected' : Option (Request × Response)} {result : Except RunError RunState}
  {report : Report}

theorem Billed.length_eq (billed : Billed budgets calls answered rejected) :
    calls.length = answered.length + rejected.toList.length := by
  rw [billed.calls_eq, List.length_append]
  cases rejected <;> rfl

/-- The calls that a wider budget covers include those that a smaller one covers. -/
theorem Billed.answered_prefix (billed : Billed budgets calls answered rejected)
    (billed' : Billed budgets' calls' answered' rejected') (first : calls <+: calls')
    (tokens : budgets.maxTokens ≤ budgets'.maxTokens) : answered <+: answered' := by
  have covered : answered <+: calls := ⟨_, billed.calls_eq.symm⟩
  cases rejected' with
  | none =>
      have all : calls' = answered' := billed'.calls_eq.trans (List.append_nil _)
      exact covered.trans (all ▸ first)
  | some last' =>
      have all := billed'.calls_eq
      rw [all] at first
      rcases List.prefix_concat_iff.mp first with same | inside
      · -- The last call is the same, and what is rejected of it by the wider budget is by both.
        cases rejected with
        | none => cases billed'.rejected_eq_none (all.trans same.symm ▸ billed) tokens
        | some last =>
            obtain ⟨equal, -⟩ := List.append_inj' (billed.calls_eq.symm.trans same) rfl
            exact equal ▸ List.prefix_rfl
      · exact covered.trans inside

/-- A run has left after some calls, from a state that they account for. -/
inductive Settles (budgets : Budgets) (job : Job) (calls : List Call) :
    Except RunError RunState → Prop where
  | intro {answered : List Call} {rejected : Option (Request × Response)} {s last : RunState}
      {now : Timestamp} (billed : Billed budgets calls answered rejected)
      (arrived : Underway job s) (before : Accounts answered none [] s)
      (goesOn : Underway job last) (accounts : Accounts answered rejected [] last) :
      Settles budgets job calls
        (.ok (Engine.finishState last (leaving budgets job s rejected.isSome) now))

/-- With a limit on tokens that they can be counted up to, a run whose writes are all saved does not
break. -/
theorem Ends.settles (ends : Ends clock budgets job calls result) (named : job.runId ≠ "")
    (planned : job.plan.id ≠ "") (bounded : budgets.maxTokens.toNat < greatestCount)
    (unlimited : budgets.timeLimit = none) : Settles budgets job calls result := by
  cases ends with
  | broken arrives broken _ =>
      exact absurd ((arrives.consistent_iff named planned).mpr (arrives.covered bounded).recordable)
        broken
  | left arrives consistent leaves =>
      obtain ⟨rejected, billed, accounts, underway, rfl⟩ := leaves.billed arrives unlimited
      exact .intro billed arrives.underway arrives.accounts underway accounts

/-- A run that settles gives back a state. -/
theorem Settles.finished (settles : Settles budgets job calls result) : ∃ s, result = .ok s := by
  cases settles with
  | intro => exact ⟨_, rfl⟩

/-- If a run ends where one under smaller budgets goes on with a call, it is because somebody wants
it to end. -/
theorem Settles.cancelled_of_departs {boundary : Boundary} {request : Request}
    (settles : Settles budgets' job calls result)
    (departs : Departs clock budgets job second t boundary request)
    (same : calls = second.filterMap Event.call?)
    (iterations : budgets.maxIterations ≤ budgets'.maxIterations)
    (tokens : budgets.maxTokens ≤ budgets'.maxTokens) :
    ∃ s, result = .ok s ∧ s.stopReason = some .cancelled := by
  cases departs with
  | @intro earlier t boundary step arrives' consistent' due allowed =>
      rw [Event.calls_append_wrote] at same
      cases settles with
      | @intro answered rejected s last now billed arrived before goesOn accounts =>
          subst same
          obtain rfl := billed.rejected_eq_none arrives'.billed tokens
          have all : earlier.filterMap Event.call? = answered :=
            billed.calls_eq.trans (List.append_nil _)
          have alike : s.Alike t := arrived.alike arrives'.underway before (all ▸ arrives'.accounts)
          obtain ⟨inPlan, -⟩ := List.getElem?_eq_some_iff.mp due
          obtain ⟨fewer, cheaper, -, -⟩ := Budgets.checkStop_eq_none_iff.mp allowed
          have fewer' : t.iterationCount < budgets'.maxIterations :=
            UInt32.lt_of_lt_of_le fewer iterations
          have cheaper' : t.tokenUsage.total < budgets'.maxTokens :=
            UInt64.lt_of_lt_of_le cheaper tokens
          refine ⟨_, rfl, ?_⟩
          rw [leaving_eq alike, leaving, if_neg (Nat.not_le.mpr inPlan), Option.isSome_none,
            if_neg Bool.false_ne_true, if_neg (UInt32.not_le.mpr fewer'),
            if_neg (UInt64.not_le.mpr cheaper'), Engine.finishState,
            RunState.stop_of_running goesOn.running]

/-- Of two runs, the one with the calls of the other and perhaps more, under budgets that are no
smaller, comes at least as far. -/
theorem Settles.further {s s' : RunState} (settles : Settles budgets job calls (.ok s))
    (settles' : Settles budgets' job calls' (.ok s')) (first : calls <+: calls')
    (tokens : budgets.maxTokens ≤ budgets'.maxTokens) :
    s.currentStepIndex ≤ s'.currentStepIndex ∧ s.iterationCount ≤ s'.iterationCount ∧
      s.tokenUsage.total ≤ s'.tokenUsage.total ∧
      (s.errors.filter (·.recoverable)).map Incident.note <+:
        (s'.errors.filter (·.recoverable)).map Incident.note := by
  cases settles with
  | @intro answered rejected arrived last now billed _ _ goesOn accounts =>
      cases settles' with
      | @intro answered' rejected' arrived' last' now' billed' _ _ goesOn' accounts' =>
          have covered : answered <+: answered' := billed.answered_prefix billed' first tokens
          let how := leaving budgets job arrived rejected.isSome
          let how' := leaving budgets' job arrived' rejected'.isSome
          have finished : Accounts answered rejected how.closing
              (Engine.finishState last how now) := accounts.finish goesOn.running how
          have finished' : Accounts answered' rejected' how'.closing
              (Engine.finishState last' how' now') := accounts'.finish goesOn'.running how'
          obtain ⟨index, total⟩ := finished.further finished' covered
          refine ⟨index, ?_, total, ?_⟩
          · rw [UInt32.le_iff_toNat_le, finished.iterations, finished'.iterations,
              ← billed.length_eq, ← billed'.length_eq]
            exact first.length_le
          · rw [finished.recoverable_eq (Finish.closing_unrecoverable _),
              finished'.recoverable_eq (Finish.closing_unrecoverable _)]
            exact covered.filterMap _

/-- A run makes a call only if it has not got answers for all steps of its plan. -/
theorem Runs.unfinished_of_call (runs : Runs clock budgets job report) {earlier later : List Call}
    {call : Call} (split : report.calls = earlier ++ call :: later) :
    (responses earlier).length < job.plan.steps.length := by
  obtain ⟨request, answer⟩ := call
  obtain ⟨step, due, -⟩ := runs.request_eq split
  obtain ⟨inPlan, -⟩ := List.getElem?_eq_some_iff.mp due
  exact inPlan

/-- A run that completes has answers for all steps of its plan, and no answer is rejected. -/
theorem Settles.of_completed {s : RunState} (settles : Settles budgets job report.calls (.ok s))
    (runs : Runs clock budgets job report) (completed : s.status = .completed) :
    ∃ last now, Billed budgets report.calls report.calls none ∧ Underway job last ∧
      Accounts report.calls none [] last ∧ s = last.complete now ∧
      job.plan.steps.length ≤ (responses report.calls).length := by
  cases settles with
  | @intro answered rejected arrived last now billed underway before goesOn accounts =>
      by_cases done : job.plan.steps.length ≤ arrived.currentStepIndex.toNat
      · rw [before.index] at done
        cases rejected with
        | some rejection =>
            have unfinished := runs.unfinished_of_call billed.calls_eq
            exact absurd done (Nat.not_le.mpr unfinished)
        | none =>
            obtain rfl : report.calls = answered := billed.calls_eq.trans (List.append_nil _)
            refine ⟨last, now, billed, goesOn, accounts, ?_, done⟩
            rw [leaving, before.index, if_pos done]
            rfl
      · exfalso
        have stops : ∃ decision, leaving budgets job arrived rejected.isSome = .stop decision := by
          unfold leaving
          rw [if_neg done]
          split
          · exact ⟨_, rfl⟩
          · split
            · exact ⟨_, rfl⟩
            · split <;> exact ⟨_, rfl⟩
        obtain ⟨decision, how⟩ := stops
        rw [how, Engine.finishState, RunState.stop_of_running goesOn.running] at completed
        cases completed

/-- A run that completes comes to the same under budgets that are no smaller. -/
theorem Settles.alike_of_completed {report' : Report} {s s' : RunState}
    (settles : Settles budgets job report.calls (.ok s))
    (settles' : Settles budgets' job report'.calls (.ok s')) (runs : Runs clock budgets job report)
    (runs' : Runs clock' budgets' job report') (first : report.calls <+: report'.calls)
    (tokens : budgets.maxTokens ≤ budgets'.maxTokens) (completed : s.status = .completed) :
    s.Alike s' := by
  obtain ⟨last, now, billed, goesOn, accounts, rfl, done⟩ := settles.of_completed runs completed
  have same : report'.calls = report.calls := by
    obtain ⟨more, split⟩ := first
    cases more with
    | nil => rw [← split, List.append_nil]
    | cons call later =>
        have unfinished := runs'.unfinished_of_call split.symm
        exact absurd done (Nat.not_le.mpr unfinished)
  rw [same] at settles'
  cases settles' with
  | @intro answered' rejected' arrived' last' now' billed' underway' before' goesOn' accounts' =>
      obtain rfl := billed'.rejected_eq_none billed tokens
      obtain rfl : report.calls = answered' := billed'.calls_eq.trans (List.append_nil _)
      rw [leaving, before'.index, if_pos done]
      exact (goesOn.alike goesOn' accounts accounts').complete goesOn.running

end History

namespace Engine

open History

variable {σ τ : Type} {env : Environment (StateM σ)} {env' : Environment (StateM τ)} {w : σ} {v : τ}
  {budgets budgets' : Budgets} {job : Job} {answers : Nat → Request → Answer}

/-- The calls of a run are the first ones of a run under wider budgets. -/
theorem calls_prefix_of_wider (named : job.runId ≠ "") (valid : job.plan.validate = .ok ())
    (unlimited' : budgets'.timeLimit = none)
    (iterations : budgets.maxIterations ≤ budgets'.maxIterations)
    (tokens : budgets.maxTokens ≤ budgets'.maxTokens)
    (bounded : budgets'.maxTokens.toNat < greatestCount)
    (plays : env.Plays answers (fun _ => false) w) (plays' : env'.Plays answers (fun _ => false) v)
    (forward' : env'.Forward v) :
    (report env budgets job w).calls <+: (report env' budgets' job v).calls := by
  have runs := report_runs env budgets job w
  have runs' := report_runs_forward env' budgets' job forward'
  have take {k : Nat} := runs.take_calls_eq runs' (report_follows plays valid)
    (report_follows plays' valid) (k := k)
  by_cases shorter :
      (report env' budgets' job v).calls.length < (report env budgets job w).calls.length
  · -- The wider run ends where the other one goes on with a call, so it was cancelled.
    exfalso
    obtain ⟨⟨request, answer⟩, later, split, -⟩ := exists_eq_take_append shorter
    obtain ⟨before, t, boundary, after, place, calls⟩ := Event.exists_called split
    have departs := runs.departures before t boundary request answer after place
    have same := take (Nat.le_of_lt shorter) (Nat.le_refl _)
    rw [List.take_length, ← calls] at same
    have settles := (runs'.ends valid (report_kept plays' valid)).settles named
      (Plan.id_ne_empty valid) bounded unlimited'
    obtain ⟨s, finished, cancelled⟩ :=
      settles.cancelled_of_departs departs same.symm iterations tokens
    have wished := report_wished plays' valid finished cancelled
    cases wished
  · have same := take (Nat.le_refl _) (Nat.not_lt.mp shorter)
    rw [List.take_length] at same
    rw [same]
    exact List.take_prefix _ _

/-- Wider budgets lose nothing. Of two runs of a job with the same answers, with all writes saved
and without a time limit or a wish to cancel, the one with the wider budgets makes all calls of the
other one and comes at least as far: in steps, in iterations, in tokens and in failures of steps
noted. If the other one completes, both come to the same. The time of day must not go back in either
run. -/
theorem execute_widened (named : job.runId ≠ "") (valid : job.plan.validate = .ok ())
    (unlimited : budgets.timeLimit = none) (unlimited' : budgets'.timeLimit = none)
    (iterations : budgets.maxIterations ≤ budgets'.maxIterations)
    (tokens : budgets.maxTokens ≤ budgets'.maxTokens)
    (bounded : budgets'.maxTokens.toNat < greatestCount)
    (plays : env.Plays answers (fun _ => false) w) (forward : env.Forward w)
    (plays' : env'.Plays answers (fun _ => false) v) (forward' : env'.Forward v) :
    let narrow := report env budgets job w
    let wide := report env' budgets' job v
    narrow.calls <+: wide.calls ∧ narrow.calls.length ≤ wide.calls.length ∧
    ∃ s s', narrow.result = .ok s ∧ wide.result = .ok s' ∧
      s.currentStepIndex ≤ s'.currentStepIndex ∧ s.iterationCount ≤ s'.iterationCount ∧
      s.tokenUsage.total ≤ s'.tokenUsage.total ∧
      (s.errors.filter (·.recoverable)).map Incident.note <+:
        (s'.errors.filter (·.recoverable)).map Incident.note ∧
      (s.status = .completed → s.Alike s') := by
  intro narrow wide
  have first : narrow.calls <+: wide.calls :=
    calls_prefix_of_wider named valid unlimited' iterations tokens bounded plays plays' forward'
  have planned := Plan.id_ne_empty valid
  have bound := UInt64.le_iff_toNat_le.mp tokens
  have runs := report_runs_forward env budgets job forward
  have runs' := report_runs_forward env' budgets' job forward'
  have settles := (runs.ends valid (report_kept plays valid)).settles named planned
    (Nat.lt_of_le_of_lt bound bounded) unlimited
  have settles' := (runs'.ends valid (report_kept plays' valid)).settles named planned bounded
    unlimited'
  obtain ⟨s, finished⟩ := settles.finished
  obtain ⟨s', finished'⟩ := settles'.finished
  rw [finished] at settles
  rw [finished'] at settles'
  obtain ⟨index, count, total, incidents⟩ := settles.further settles' first tokens
  exact ⟨first, first.length_le, s, s', finished, finished', index, count, total, incidents,
    settles.alike_of_completed settles' runs runs' first tokens⟩

/-- A rehearsal that has used up its three iterations makes one more call under wider budgets, which
completes it. -/
theorem rehearsal_widened :
    let script : Script := [.error "no answer", .ok (3, 4), .error "no answer", .ok (5, 6)]
    let world := World.rehearsal script .none
    let narrow := report World.environment .scant .rehearsal world
    let wide := report World.environment .rehearsal .rehearsal world
    narrow.calls.length = 3 ∧ wide.calls.length = 4 ∧ narrow.calls <+: wide.calls ∧
      ∃ s s', narrow.result = .ok s ∧ wide.result = .ok s' ∧
        s.currentStepIndex ≤ s'.currentStepIndex := by
  intro script world narrow wide
  have scripted : World.Scripted script none none 0 world :=
    ⟨rfl, rfl, rfl, rfl, rfl, rfl, rfl, rfl⟩
  have forward : World.environment.Forward world := World.rehearsal_forward script .none
  have named : Job.rehearsal.runId ≠ "" := by decide
  have three : narrow.calls.length = 3 := by decide +kernel
  have four : wide.calls.length = 4 := by decide +kernel
  have iterations : Budgets.scant.maxIterations ≤ Budgets.rehearsal.maxIterations := by decide
  have tokens : Budgets.scant.maxTokens ≤ Budgets.rehearsal.maxTokens := by decide
  have bounded : Budgets.rehearsal.maxTokens.toNat < greatestCount := by decide
  obtain ⟨first, -, s, s', finished, finished', index, -⟩ :=
    execute_widened named Job.rehearsal_valid rfl rfl iterations tokens bounded scripted.plays
      forward scripted.plays forward
  exact ⟨three, four, first, s, s', finished, finished', index⟩

end Engine

end BudgetedRun
