import BudgetedRun.Proofs.Engine.Departures
import BudgetedRun.Proofs.Engine.Likeness
import BudgetedRun.Proofs.Engine.Writes

/-!
# What the calls of a run decide

Under budgets without a time limit, and with a store that saves all, the calls of a run decide its
end. The states that two runs arrive at by the same calls are alike (`History.Arrives.alike`), and
so are the results of two runs that are over after the same calls (`History.Over.same_result`). If
one of them goes on where the other is over, somebody wanted the other to end
(`History.Over.cancelled_of_departs`).
-/

namespace BudgetedRun

/-- States of one job that go on are alike if they account for the same calls. -/
theorem Underway.alike {job : Job} {s t : RunState} {calls : List Call}
    {rejected : Option (Request × Response)} (underway : Underway job s)
    (underway' : Underway job t) (accounts : Accounts calls rejected [] s)
    (accounts' : Accounts calls rejected [] t) : s.Alike t where
  runId := underway.runId.trans underway'.runId.symm
  planId := underway.planId.trans underway'.planId.symm
  status := underway.running.trans underway'.running.symm
  stopReason := underway.stopReason.trans underway'.stopReason.symm
  index := UInt64.toNat_inj.mp (accounts.index.trans accounts'.index.symm)
  iterations := UInt32.toNat_inj.mp (accounts.iterations.trans accounts'.iterations.symm)
  usage := accounts.usage.unique accounts'.usage
  notes := accounts.incidents.trans accounts'.incidents.symm
  ended := by rw [underway.endTime, underway'.endTime]

namespace History

open RunState

section Billed

variable {budgets budgets' : Budgets} {calls answered answered' : List Call}
  {rejected rejected' : Option (Request × Response)}

/-- No response that was answered within the budget is beyond it. -/
theorem Billed.within (billed : Billed budgets calls answered rejected) {earlier later : List Call}
    {request : Request} {r : Response} (split : answered = earlier ++ (request, .ok r) :: later) :
    min (tokensSpent earlier + r.cost) greatestCount ≤ budgets.maxTokens.toNat := by
  by_cases bounded : budgets.maxTokens.toNat < greatestCount
  · have spent := billed.covered bounded earlier request r later split
    omega
  · omega

/-- A last call that was answered within some budget is not rejected by one that is no smaller. -/
theorem Billed.rejected_eq_none (billed : Billed budgets calls answered rejected)
    (billed' : Billed budgets' calls answered' none)
    (smaller : budgets'.maxTokens ≤ budgets.maxTokens) : rejected = none := by
  have calls_eq : calls = answered' := billed'.calls_eq.trans (List.append_nil _)
  rcases rejected with _ | ⟨request, r⟩
  · rfl
  · have beyond := billed.beyond request r rfl
    have within := billed'.within (calls_eq.symm.trans billed.calls_eq)
    have bound := UInt64.le_iff_toNat_le.mp smaller
    omega

/-- The calls say which of them was rejected. -/
theorem Billed.unique (billed : Billed budgets calls answered rejected)
    (billed' : Billed budgets calls answered' rejected') :
    answered = answered' ∧ rejected = rejected' := by
  have same := billed.calls_eq.symm.trans billed'.calls_eq
  cases rejected with
  | none =>
      obtain rfl := billed'.rejected_eq_none billed (UInt64.le_refl _)
      exact ⟨List.append_cancel_right same, rfl⟩
  | some last =>
      cases rejected' with
      | none => cases billed.rejected_eq_none billed' (UInt64.le_refl _)
      | some last' =>
          obtain ⟨answers, ends⟩ := List.append_inj' same rfl
          refine ⟨answers, congrArg some ?_⟩
          obtain ⟨request, r⟩ := last
          obtain ⟨request', r'⟩ := last'
          cases List.singleton_inj.mp ends
          rfl

end Billed

variable {clock clock' : Timestamp → Timestamp → Prop} {budgets : Budgets} {job : Job}
  {s t last : RunState} {how : Finish} {first second left : List Event} {calls calls' : List Call}
  {result result' : Except RunError RunState} {report : Report}

/-- Two runs arrive at states that are alike by the same calls. -/
theorem Arrives.alike (arrives : Arrives clock budgets job s first)
    (arrives' : Arrives clock' budgets job t second)
    (same : first.filterMap Event.call? = second.filterMap Event.call?) : s.Alike t :=
  arrives.underway.alike arrives'.underway arrives.accounts (same ▸ arrives'.accounts)

theorem Arrives.billed (arrives : Arrives clock budgets job s first) :
    Billed budgets (first.filterMap Event.call?) (first.filterMap Event.call?) none :=
  ⟨(List.append_nil _).symm, arrives.covered, nofun⟩

/-- How a run without a time limit that has come to some state leaves for its end, by whether it was
for a response that was rejected. -/
def leaving (budgets : Budgets) (job : Job) (s : RunState) (rejected : Bool) : Finish :=
  if job.plan.steps.length ≤ s.currentStepIndex.toNat then .complete
  else if rejected then .stop ⟨.budgetExhausted, none⟩
  else if budgets.maxIterations ≤ s.iterationCount then .stop ⟨.maxIterations, none⟩
  else if budgets.maxTokens ≤ s.tokenUsage.total then .stop ⟨.budgetExhausted, none⟩
  else .stop ⟨.cancelled, some "run cancelled"⟩

/-- Runs leave alike from states that differ in times only. -/
theorem leaving_eq (alike : s.Alike t) (rejected : Bool) :
    leaving budgets job s rejected = leaving budgets job t rejected := by
  rw [leaving, leaving, alike.index, alike.iterations, alike.usage]

theorem Leaves.how_eq {rejected : Option (Request × Response)}
    (leaves : Leaves clock budgets job s last how left) (unlimited : budgets.timeLimit = none)
    (called : left.filterMap Event.call? = rejectedCall rejected) :
    how = leaving budgets job s rejected.isSome := by
  cases leaves with
  | complete done => rw [leaving, if_pos (List.getElem?_eq_none_iff.mp done)]
  | @stop step boundary decision noted due decided entry =>
      obtain ⟨e, rfl⟩ := entry.exists_logged
      obtain ⟨inPlan, -⟩ := List.getElem?_eq_some_iff.mp due
      have unrejected : rejected.isSome = false := by
        cases rejected with
        | none => rfl
        | some => cases called
      have untimed : budgets.exceededTime? boundary.elapsed = none := by
        rw [Budgets.exceededTime?, unlimited]
        rfl
      rw [Budgets.checkStop, untimed] at decided
      rw [leaving, if_neg (Nat.not_le.mpr inPlan), unrejected, if_neg Bool.false_ne_true]
      split at decided
      · rename_i iterations
        rw [if_pos iterations, ← Option.some.inj decided]
      · rename_i iterations
        rw [if_neg iterations]
        split at decided
        · rename_i tokens
          rw [if_pos tokens, ← Option.some.inj decided]
        · rename_i tokens
          rw [if_neg tokens]
          cases cancelled : boundary.cancelled with
          | true =>
              rw [cancelled] at decided
              rw [← Option.some.inj decided]
          | false =>
              rw [cancelled] at decided
              cases decided
  | reject iterates beyond =>
      cases iterates with
      | intro due allowed judges reading entry =>
          obtain ⟨e, rfl⟩ := entry.exists_logged
          obtain ⟨inPlan, -⟩ := List.getElem?_eq_some_iff.mp due
          rw [leaving, if_neg (Nat.not_le.mpr inPlan)]
          cases rejected with
          | none => cases called
          | some => rfl

/-- A run whose writes are all saved ends after some calls, with some result: a state that it has
arrived at is not consistent, or it has left from one that is. -/
inductive Ends (clock : Timestamp → Timestamp → Prop) (budgets : Budgets) (job : Job) :
    List Call → Except RunError RunState → Prop where
  | broken {s : RunState} {before : List Event} {fault : Fault} {now : Timestamp}
      (arrives : Arrives clock budgets job s before)
      (broken : s.progressViolations job.plan.steps.length budgets ≠ [])
      (fault_eq : fault = .inconsistent (s.progressViolations job.plan.steps.length budgets)) :
      Ends clock budgets job (before.filterMap Event.call?)
        (.error (.failed ⟨job.runId, fault, s.fail fault.message now⟩))
  | left {s last : RunState} {how : Finish} {before left : List Event} {now : Timestamp}
      (arrives : Arrives clock budgets job s before)
      (consistent : s.progressViolations job.plan.steps.length budgets = [])
      (leaves : Leaves clock budgets job s last how left) :
      Ends clock budgets job (before.filterMap Event.call? ++ left.filterMap Event.call?)
        (.ok (Engine.finishState last how now))

/-- What a run that ends without a fault has come to. -/
theorem Leaves.billed (leaves : Leaves clock budgets job s last how left)
    (arrives : Arrives clock budgets job s first) (unlimited : budgets.timeLimit = none) :
    ∃ rejected, Billed budgets (first.filterMap Event.call? ++ left.filterMap Event.call?)
        (first.filterMap Event.call?) rejected ∧
      Accounts (first.filterMap Event.call?) rejected [] last ∧ Underway job last ∧
      how = leaving budgets job s rejected.isSome := by
  obtain ⟨rejected, called, accounts, beyond⟩ := leaves.accounts arrives.underway arrives.accounts
  refine ⟨rejected, ⟨congrArg _ called, arrives.covered, beyond⟩, accounts, ?_,
    leaves.how_eq unlimited called⟩
  exact (leaves.underway arrives.underway arrives.iterationCount_le).1

/-- A run that has left after some calls has left from a state like the one that another run arrives
at by these calls. -/
theorem Leaves.alike_of_arrives (leaves : Leaves clock budgets job s last how left)
    (arrives : Arrives clock budgets job s first) (unlimited : budgets.timeLimit = none)
    (arrives' : Arrives clock' budgets job t second)
    (same : first.filterMap Event.call? ++ left.filterMap Event.call? =
      second.filterMap Event.call?) :
    s.Alike t ∧ last.Alike t ∧ Underway job last ∧ how = leaving budgets job t false := by
  obtain ⟨rejected, billed, accounts, underway, rfl⟩ := leaves.billed arrives unlimited
  rw [same] at billed
  obtain ⟨answered, rfl⟩ := billed.unique arrives'.billed
  have alike := arrives.alike arrives' answered
  rw [answered] at accounts
  exact ⟨alike, underway.alike arrives'.underway accounts arrives'.accounts, underway,
    leaving_eq alike false⟩

/-- Two runs that end after the same calls came to the same. -/
theorem Ends.same_result (ends : Ends clock budgets job calls result)
    (ends' : Ends clock' budgets job calls' result') (same : calls = calls')
    (unlimited : budgets.timeLimit = none) : SameResult result result' := by
  cases ends with
  | broken arrives broken fault_eq =>
      cases ends' with
      | broken arrives' broken' fault_eq' =>
          have alike := arrives.alike arrives' same
          have violations := alike.progressViolations_eq arrives.underway.endTime
            job.plan.steps.length budgets
          obtain rfl :=
            fault_eq.trans ((congrArg Fault.inconsistent violations).trans fault_eq'.symm)
          exact .failed rfl rfl (alike.fail arrives.underway.running _)
      | left arrives' consistent' leaves' =>
          obtain ⟨alike, -⟩ := leaves'.alike_of_arrives arrives' unlimited arrives same.symm
          rw [alike.progressViolations_eq arrives'.underway.endTime] at consistent'
          exact absurd consistent' broken
  | left arrives consistent leaves =>
      cases ends' with
      | broken arrives' broken' fault_eq' =>
          obtain ⟨alike, -⟩ := leaves.alike_of_arrives arrives unlimited arrives' same
          rw [alike.progressViolations_eq arrives.underway.endTime] at consistent
          exact absurd consistent broken'
      | left arrives' consistent' leaves' =>
          obtain ⟨rejected, billed, accounts, underway, rfl⟩ := leaves.billed arrives unlimited
          obtain ⟨rejected', billed', accounts', underway', rfl⟩ :=
            leaves'.billed arrives' unlimited
          rw [same] at billed
          obtain ⟨answered, rfl⟩ := billed.unique billed'
          rw [leaving_eq (arrives.alike arrives' answered)]
          rw [answered] at accounts
          have alike := underway.alike underway' accounts accounts'
          exact .finished (alike.finishState underway.running _)

/-- If a run ends where another one goes on with a call, it is because somebody wants it to end. -/
theorem Ends.cancelled_of_departs {boundary : Boundary} {request : Request}
    (ends : Ends clock budgets job calls result) (unlimited : budgets.timeLimit = none)
    (departs : Departs clock' budgets job second t boundary request)
    (same : calls = second.filterMap Event.call?) :
    ∃ last now, Underway job last ∧ last.Alike t ∧
      result = .ok (last.stop ⟨.cancelled, some "run cancelled"⟩ now) := by
  cases departs with
  | @intro earlier t boundary step arrives' consistent' due allowed =>
      rw [Event.calls_append_wrote] at same
      cases ends with
      | broken arrives broken fault_eq =>
          have alike := arrives.alike arrives' same
          rw [alike.progressViolations_eq arrives.underway.endTime] at broken
          exact absurd consistent' broken
      | @left s last how before left now arrives consistent leaves =>
          obtain ⟨-, alike, underway, rfl⟩ :=
            leaves.alike_of_arrives arrives unlimited arrives' same
          obtain ⟨inPlan, -⟩ := List.getElem?_eq_some_iff.mp due
          obtain ⟨iterations, tokens, -, -⟩ := Budgets.checkStop_eq_none_iff.mp allowed
          refine ⟨last, now, underway, alike, ?_⟩
          rw [leaving, if_neg (Nat.not_le.mpr inPlan), if_neg Bool.false_ne_true,
            if_neg (UInt32.not_le.mpr iterations), if_neg (UInt64.not_le.mpr tokens)]
          rfl

/-- A run fails with its fault, in the running state that has failed at some time. -/
theorem Fails.failure_eq {fault : Fault} {failure : RunFailure} {events : List Event}
    (fails : Fails clock job s fault failure events) :
    ∃ now, failure = ⟨job.runId, fault, s.fail fault.message now⟩ := by
  cases fails with
  | recorded => exact ⟨_, rfl⟩
  | unrecorded => exact ⟨_, rfl⟩

/-- A run that breaks although its writes are saved has come to a state that is not consistent. -/
theorem Breaks.inconsistent_of_kept {running : RunState} {failure : RunFailure}
    {events : List Event} (breaks : Breaks clock budgets job s running failure events)
    (kept : ∀ write ∈ events.filterMap Event.write?, write.2 = .ok ()) :
    s.progressViolations job.plan.steps.length budgets ≠ [] ∧
      ∃ fault now, fault = .inconsistent (s.progressViolations job.plan.steps.length budgets) ∧
        failure = ⟨job.runId, fault, running.fail fault.message now⟩ := by
  cases breaks with
  | unsaved consistent fails => cases (List.forall_mem_cons.mp kept).1
  | inconsistent broken fails =>
      obtain ⟨now, failure_eq⟩ := fails.failure_eq
      exact ⟨broken, _, now, rfl, failure_eq⟩

theorem runId_ne_empty_of_consistent (underway : Underway job s)
    (consistent : s.progressViolations job.plan.steps.length budgets = []) : job.runId ≠ "" := by
  obtain ⟨byItself, -⟩ := of_progressViolations_eq_nil consistent
  simp only [violations, List.append_eq_nil_iff, flag_eq_nil_iff] at byItself
  exact underway.runId ▸ byItself.1.1.1.1

/-- A run of a plan that can be run ends after its calls, if all of its writes are saved and the
time of day never goes back. -/
theorem Runs.ends (runs : Runs (fun start now => start ≤ now) budgets job report)
    (valid : job.plan.validate = .ok ()) (kept : ∀ write ∈ report.writes, write.2 = .ok ()) :
    Ends (fun start now => start ≤ now) budgets job report.calls report.result := by
  rw [Report.writes_eq] at kept
  cases runs with
  | refused invalid => rw [invalid] at valid; cases valid
  | failed _ closes =>
      cases closes with
      | fail arrives breaks =>
          rw [List.filterMap_append, List.forall_mem_append] at kept
          rw [Report.calls_eq, List.filterMap_append, breaks.uncalled, List.append_nil]
          obtain ⟨broken, fault, now, fault_eq, rfl⟩ := breaks.inconsistent_of_kept kept.2
          exact .broken arrives broken fault_eq
  | unfinished _ closes reading breaks =>
      cases closes with
      | finish arrives consistent leaves =>
          rw [List.filterMap_append, List.forall_mem_append] at kept
          obtain ⟨broken, -⟩ := breaks.inconsistent_of_kept kept.2
          have named := runId_ne_empty_of_consistent arrives.underway consistent
          have planned := Plan.id_ne_empty valid
          refine absurd ((leaves.consistent_iff arrives named planned reading).mpr ?_) broken
          exact (arrives.consistent_iff named planned).mp consistent
  | @finished last finished how now before noted _ closes reading finished_eq _ entry =>
      subst finished_eq
      obtain ⟨e, rfl⟩ := entry.exists_logged
      cases closes with
      | @finish s last how arrived left arrives consistent leaves =>
          rw [Report.calls_eq, List.filterMap_append, Event.calls_append_write]
          change Ends _ _ _ (_ ++ []) _
          rw [List.append_nil]
          exact .left arrives consistent leaves

/-- Every answer among some calls is the one of its place. -/
def Follows (answers : Nat → Request → Answer) (calls : List Call) : Prop :=
  ∀ earlier request answer later, calls = earlier ++ (request, answer) :: later →
    answer = answers earlier.length request

/-- What is at some place of a list comes after all before it. -/
theorem exists_eq_take_append {α : Type} {l : List α} {k : Nat} (below : k < l.length) :
    ∃ e rest, l = l.take k ++ e :: rest ∧ l.take (k + 1) = l.take k ++ [e] := by
  refine ⟨l[k], l.drop (k + 1), ?_, List.take_concat_get' l k below |>.symm⟩
  rw [List.getElem_cons_drop, List.take_append_drop]

/-- Runs whose answers are the same make the same calls as long as both go on. -/
theorem Runs.take_calls_eq {budgets' : Budgets} {report' : Report}
    {answers : Nat → Request → Answer} (runs : Runs clock budgets job report)
    (runs' : Runs clock' budgets' job report') (follows : Follows answers report.calls)
    (follows' : Follows answers report'.calls) {k : Nat} (within : k ≤ report.calls.length)
    (within' : k ≤ report'.calls.length) : report.calls.take k = report'.calls.take k := by
  induction k with
  | zero => rfl
  | succ k ih =>
      have same := ih (Nat.le_of_succ_le within) (Nat.le_of_succ_le within')
      obtain ⟨⟨request, answer⟩, later, split, next⟩ := exists_eq_take_append within
      obtain ⟨⟨request', answer'⟩, later', split', next'⟩ := exists_eq_take_append within'
      -- The calls before decide which step is due, and their number decides the answer.
      obtain ⟨step, due, rfl⟩ := runs.request_eq split
      obtain ⟨step', due', rfl⟩ := runs'.request_eq split'
      have given := follows _ _ _ _ split
      have given' := follows' _ _ _ _ split'
      rw [← same] at split' next' due' given'
      obtain rfl : step = step' := Option.some.inj (due.symm.trans due')
      rw [next, next', given, given']

end History

end BudgetedRun
