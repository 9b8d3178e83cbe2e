import BudgetedRun.Proofs.Engine.Underway
import Mathlib

/-!
# The accounts of a run

What a run has to show for its calls, in unbounded arithmetic. Its calls are some that were answered
and, perhaps, a last one whose answer was rejected. `Accounts` says what the state then holds: the
step that is due, the tokens, the iterations and what went wrong. Every state that a run arrives at
or leaves from has its accounts in order.
-/

namespace BudgetedRun

/-- What an incident says, apart from when it was recorded. -/
structure Note where
  stepId : Option String
  message : String
  recoverable : Bool
deriving DecidableEq

/-- What an incident says. -/
def Incident.note (i : Incident) : Note := ⟨i.stepId, i.message, i.recoverable⟩

/-- A request with its answer. -/
abbrev Call := Request × Answer

namespace Call

/-- The response, if the call did not fail. -/
def response? : Call → Option Response
  | (_, .ok r) => some r
  | (_, .error _) => none

/-- What is noted of a call that failed. -/
def failure? : Call → Option Note
  | (_, .ok _) => none
  | (request, .error message) => some ⟨some request.stepId, message, true⟩

end Call

namespace Response

/-- All tokens of a response. -/
def cost (r : Response) : Nat := r.inputTokens.toNat + r.outputTokens.toNat

/-- What is noted of a response that is rejected. -/
def rejection (request : Request) (r : Response) : Note :=
  ⟨some request.stepId, StepOutcome.rejection r.inputTokens r.outputTokens, false⟩

end Response

/-- The responses among the answers of some calls. -/
def responses (calls : List Call) : List Response := calls.filterMap Call.response?

/-- The tokens read for the responses of some calls. -/
def tokensRead (calls : List Call) : Nat :=
  ((responses calls).map fun r => r.inputTokens.toNat).sum

/-- The tokens written in the responses of some calls. -/
def tokensWritten (calls : List Call) : Nat :=
  ((responses calls).map fun r => r.outputTokens.toNat).sum

/-- All tokens of the responses of some calls. -/
def tokensSpent (calls : List Call) : Nat := ((responses calls).map Response.cost).sum

@[simp] theorem responses_append_ok (calls : List Call) (request : Request) (r : Response) :
    responses (calls ++ [(request, .ok r)]) = responses calls ++ [r] := by
  rw [responses, List.filterMap_append]
  rfl

@[simp] theorem responses_append_error (calls : List Call) (request : Request) (message : String) :
    responses (calls ++ [(request, .error message)]) = responses calls := by
  rw [responses, List.filterMap_append]
  exact List.append_nil _

/-- There are no more responses than calls. -/
theorem length_responses_le (calls : List Call) : (responses calls).length ≤ calls.length :=
  List.length_filterMap_le _ _

/-- The tokens of some calls are those read and those written. -/
theorem tokensSpent_eq (calls : List Call) :
    tokensSpent calls = tokensRead calls + tokensWritten calls := by
  rw [tokensSpent, tokensRead, tokensWritten]
  induction responses calls with
  | nil => rfl
  | cons r rest ih =>
      simp only [List.map_cons, List.sum_cons, ih, Response.cost]
      omega

/-- One more response adds its tokens. -/
theorem tokensSpent_append_ok (calls : List Call) (request : Request) (r : Response) :
    tokensSpent (calls ++ [(request, .ok r)]) = tokensSpent calls + r.cost := by
  rw [tokensSpent, responses_append_ok, List.map_append, List.sum_append]
  rfl

/-- Every response among some calls was within the limit when it came. -/
def Covered (limit : Nat) (calls : List Call) : Prop :=
  ∀ earlier request r later, calls = earlier ++ (request, .ok r) :: later →
    tokensSpent earlier + r.cost ≤ limit

namespace Covered

variable {limit : Nat} {calls : List Call}

/-- No calls are within any limit. -/
theorem nil : Covered limit [] := by
  intro earlier request r later split
  exact absurd split.symm (List.append_ne_nil_of_right_ne_nil _ (List.cons_ne_nil _ _))

/-- One more call is covered if its response is within the limit when it comes. -/
theorem append {call : Call} (covered : Covered limit calls)
    (last : ∀ request r, call = (request, .ok r) → tokensSpent calls + r.cost ≤ limit) :
    Covered limit (calls ++ [call]) := by
  intro earlier request r later split
  -- Either the response is the last call itself, or it is among the calls before.
  rcases List.eq_nil_or_concat later with rfl | ⟨later, final, rfl⟩
  · obtain ⟨rfl, ends⟩ := List.append_inj' split rfl
    exact last request r (List.singleton_inj.mp ends)
  · rw [List.concat_eq_append, ← List.cons_append, ← List.append_assoc] at split
    exact covered earlier request r later (List.append_inj' split rfl).1

/-- The tokens of calls that are covered are within the limit. -/
theorem tokensSpent_le (covered : Covered limit calls) : tokensSpent calls ≤ limit := by
  induction calls using List.reverseRecOn with
  | nil => exact Nat.zero_le _
  | append_singleton calls call ih =>
      obtain ⟨request, answer⟩ := call
      cases answer with
      | ok r =>
          rw [tokensSpent_append_ok]
          exact covered calls request r [] rfl
      | error message =>
          rw [tokensSpent, responses_append_error]
          refine ih fun earlier request r later split => ?_
          exact covered earlier request r (later ++ [_]) (by
            rw [split, List.append_assoc, List.cons_append])

end Covered

/-- The tokens read for some calls and those written, each cut off at the greatest count, stay
within it together, so that a usage can show their sum. -/
def Recordable (calls : List Call) : Prop :=
  min (tokensRead calls) greatestCount + min (tokensWritten calls) greatestCount ≤ greatestCount

/-- Tokens within a limit that is a count can be recorded. -/
theorem Covered.recordable {limit : UInt64} {calls : List Call}
    (covered : Covered limit.toNat calls) : Recordable calls := by
  have spent := covered.tokensSpent_le
  have bound := toNat_le_greatestCount limit
  rw [tokensSpent_eq] at spent
  rw [Recordable]
  omega

/-- The accounts of a state are in order: it shows what the answered calls came to, the call whose
answer was rejected, if there is one, and what was noted at the end of the run. -/
structure Accounts (answered : List Call) (rejected : Option (Request × Response))
    (closing : List Note) (s : RunState) : Prop where
  index : s.currentStepIndex.toNat = (responses answered).length
  usage : s.tokenUsage.Counts (tokensRead answered) (tokensWritten answered)
  iterations : s.iterationCount.toNat = answered.length + rejected.toList.length
  incidents : s.errors.map Incident.note =
    answered.filterMap Call.failure? ++
      (rejected.map fun (request, r) => r.rejection request).toList ++ closing

/-- The note that the end of a run leaves, if it needs an explanation. -/
def Finish.closing : Finish → List Note
  | complete => []
  | stop decision => (decision.detail.map fun detail => ⟨none, detail, false⟩).toList

namespace Accounts

open RunState

variable {calls : List Call} {rejected : Option (Request × Response)} {s : RunState}
  {limit : UInt32} {now : Timestamp}

/-- The accounts of a new run are in order, with no calls. -/
theorem start (runId planId : String) (now : Timestamp) :
    Accounts [] none [] (.start runId planId now) where
  index := rfl
  usage := .zero
  iterations := rfl
  incidents := rfl

/-- A state whose accounts are in order is consistent exactly if its tokens can be recorded. -/
theorem violations_eq_nil_iff {closing : List Note} (accounts : Accounts calls rejected closing s)
    (framed : s.Framed) : s.violations = [] ↔ Recordable calls :=
  framed.violations_eq_nil_iff accounts.usage

/-- Before a rejection and before the end, a state notes the calls that failed and nothing else. -/
theorem notes_eq (accounts : Accounts calls none [] s) :
    s.errors.map Incident.note = calls.filterMap Call.failure? := by
  rw [accounts.incidents, List.append_nil, Option.map_none, Option.toList_none, List.append_nil]

/-- The index does not wrap around: it is at most the number of calls, which 32 bits count. -/
theorem toNat_index_succ {closing : List Note} (accounts : Accounts calls rejected closing s) :
    (s.currentStepIndex + 1).toNat = s.currentStepIndex.toNat + 1 := by
  have index := accounts.index
  have few := accounts.iterations
  have bound := UInt32.toNat_lt s.iterationCount
  have fewer := length_responses_le calls
  have one : (1 : UInt64).toNat = 1 := rfl
  rw [UInt64.toNat_add, one]
  omega

/-- A step that succeeds keeps the accounts in order. -/
theorem succeeded (accounts : Accounts calls none [] s) (running : s.status = .running)
    (below : s.iterationCount < limit) (request : Request) (r : Response) (stepId : String) :
    Accounts (calls ++ [(request, .ok r)]) none []
      (s.advance stepId (.succeeded r.inputTokens r.outputTokens) now) := by
  rw [advance_succeeded running]
  constructor
  · rw [accounts.toNat_index_succ, accounts.index, responses_append_ok, List.length_append]
    rfl
  · rw [tokensRead, tokensWritten, responses_append_ok]
    simp only [List.map_append, List.sum_append, List.map_singleton, List.sum_singleton]
    exact accounts.usage.add r.inputTokens r.outputTokens
  · rw [toNat_nextIteration below, accounts.iterations, List.length_append]
    rfl
  · rw [accounts.notes_eq, List.filterMap_append]
    simp [Call.failure?]

/-- A step that fails keeps the accounts in order. -/
theorem failed (accounts : Accounts calls none [] s) (running : s.status = .running)
    (below : s.iterationCount < limit) (request : Request) (message : String) :
    Accounts (calls ++ [(request, .error message)]) none []
      (s.advance request.stepId (.failed message) now) := by
  rw [advance_failed running]
  constructor
  · rw [responses_append_error]
    exact accounts.index
  · rw [tokensRead, tokensWritten, responses_append_error]
    exact accounts.usage
  · rw [toNat_nextIteration below, accounts.iterations, List.length_append]
    rfl
  · rw [List.map_append, accounts.notes_eq, List.filterMap_append]
    simp [Call.failure?, Incident.note]

/-- A response that costs too much keeps the accounts in order, and is rejected. -/
theorem overBudget (accounts : Accounts calls none [] s) (running : s.status = .running)
    (below : s.iterationCount < limit) (request : Request) (r : Response) :
    Accounts calls (some (request, r)) []
      (s.advance request.stepId (.overBudget r.inputTokens r.outputTokens) now) := by
  rw [advance_overBudget running]
  constructor
  · exact accounts.index
  · exact accounts.usage
  · rw [toNat_nextIteration below, accounts.iterations]
    rfl
  · rw [List.map_append, accounts.notes_eq, List.append_nil]
    rfl

/-- The end of a run keeps its accounts in order, with the note that it leaves. -/
theorem finish (accounts : Accounts calls rejected [] s) (running : s.status = .running)
    (how : Finish) : Accounts calls rejected how.closing (Engine.finishState s how now) := by
  obtain ⟨index, usage, iterations, incidents⟩ := accounts
  cases how with
  | complete =>
      rw [Engine.finishState, complete_of_running running]
      exact ⟨index, usage, iterations, incidents⟩
  | stop decision =>
      rw [Engine.finishState, stop_of_running running]
      refine ⟨index, usage, iterations, ?_⟩
      rw [List.append_nil] at incidents
      rw [List.map_append, incidents]
      obtain ⟨reason, _ | detail⟩ := decision <;> rfl

/-- A run that fails keeps its accounts in order, with the note of its failure. -/
theorem fail (accounts : Accounts calls rejected [] s) (running : s.status = .running)
    (message : String) :
    Accounts calls rejected [⟨none, message, false⟩] (s.fail message now) := by
  obtain ⟨index, usage, iterations, incidents⟩ := accounts
  rw [fail_of_running running]
  refine ⟨index, usage, iterations, ?_⟩
  rw [List.append_nil] at incidents
  rw [List.map_append, incidents]
  rfl

end Accounts

namespace History

variable {clock : Timestamp → Timestamp → Prop} {budgets : Budgets} {job : Job}
  {s s' last : RunState} {o : StepOutcome} {how : Finish} {calls : List Call}
  {events worked left : List Event}

/-- An iteration within the budget keeps the accounts in order, with one more call. -/
theorem Iterates.accounts (iterates : Iterates clock budgets job s o s' worked)
    (within : ¬o.IsOverBudget) (underway : Underway job s) (accounts : Accounts calls none [] s) :
    Accounts (calls ++ worked.filterMap Event.call?) none [] s' := by
  cases iterates with
  | intro due allowed judges reading entry =>
      have below := (Budgets.checkStop_eq_none_iff.mp allowed).1
      obtain ⟨e, rfl⟩ := entry.exists_logged
      cases judges with
      | succeeded covered => exact accounts.succeeded underway.running below _ _ _
      | failed => exact accounts.failed underway.running below (Engine.request job _ _) _
      | overBudget beyond => exact absurd trivial within

/-- Under a limit below the greatest count, a response that is accepted is within it. -/
theorem Iterates.covered (iterates : Iterates clock budgets job s o s' worked)
    (within : ¬o.IsOverBudget) (bounded : budgets.maxTokens.toNat < greatestCount)
    (accounts : Accounts calls none [] s) (before : Covered budgets.maxTokens.toNat calls) :
    Covered budgets.maxTokens.toNat (calls ++ worked.filterMap Event.call?) := by
  cases iterates with
  | intro due allowed judges reading entry =>
      obtain ⟨e, rfl⟩ := entry.exists_logged
      refine before.append fun request r same => ?_
      cases judges with
      | succeeded covered =>
          cases same
          have enough := mt (Budgets.wouldExceedTokens_iff_of_lt accounts.usage bounded _ _).mpr
            (Bool.not_eq_true _ ▸ covered)
          rw [tokensSpent_eq, Response.cost]
          omega
      | failed => cases same
      | overBudget beyond => exact absurd trivial within

/-- The accounts of every state that a run arrives at are in order. -/
theorem Arrives.accounts (arrives : Arrives clock budgets job s events) :
    Accounts (events.filterMap Event.call?) none [] s := by
  induction arrives with
  | start entry =>
      obtain ⟨e, rfl⟩ := entry.exists_logged
      exact .start ..
  | next arrives _ iterates within ih =>
      rw [Event.calls_append_write]
      exact iterates.accounts within arrives.underway ih

/-- Under a limit below the greatest count, all responses that a run has accepted are within it. -/
theorem Arrives.covered (arrives : Arrives clock budgets job s events)
    (bounded : budgets.maxTokens.toNat < greatestCount) :
    Covered budgets.maxTokens.toNat (events.filterMap Event.call?) := by
  induction arrives with
  | start entry =>
      obtain ⟨e, rfl⟩ := entry.exists_logged
      exact .nil
  | next arrives _ iterates within ih =>
      rw [Event.calls_append_write]
      exact iterates.covered within bounded arrives.accounts ih

/-- A run does not come further than the end of its plan. -/
theorem Arrives.index_le (arrives : Arrives clock budgets job s events) :
    s.currentStepIndex.toNat ≤ job.plan.steps.length := by
  induction arrives with
  | start => exact Nat.zero_le _
  | @next s s' o before worked arrives _ iterates within ih =>
      cases iterates with
      | intro due allowed judges reading entry =>
          obtain ⟨inPlan, -⟩ := List.getElem?_eq_some_iff.mp due
          have running := arrives.underway.running
          cases judges with
          | succeeded covered =>
              have one : (1 : UInt64).toNat = 1 := rfl
              rw [RunState.advance_succeeded running, UInt64.toNat_add, one]
              exact Nat.le_trans (Nat.mod_le _ _) inPlan
          | failed =>
              rw [RunState.advance_failed running]
              exact ih
          | overBudget beyond => exact absurd trivial within

/-- The call that makes a run leave for its end, if its answer was rejected. -/
def rejectedCall (rejected : Option (Request × Response)) : List Call :=
  (rejected.map fun (request, r) => (request, .ok r)).toList

/-- The accounts of every state that a run leaves from are in order, and no more is rejected than
the response that was beyond the limit. -/
theorem Leaves.accounts (leaves : Leaves clock budgets job s last how left)
    (underway : Underway job s) (accounts : Accounts calls none [] s) :
    ∃ rejected, left.filterMap Event.call? = rejectedCall rejected ∧
      Accounts calls rejected [] last ∧
      ∀ request r, rejected = some (request, r) →
        budgets.maxTokens.toNat < min (tokensSpent calls + r.cost) greatestCount := by
  cases leaves with
  | complete done => exact ⟨none, rfl, accounts, nofun⟩
  | stop due decided entry =>
      obtain ⟨e, rfl⟩ := entry.exists_logged
      exact ⟨none, rfl, accounts, nofun⟩
  | reject iterates beyond =>
      cases iterates with
      | intro due allowed judges reading entry =>
          have below := (Budgets.checkStop_eq_none_iff.mp allowed).1
          obtain ⟨e, rfl⟩ := entry.exists_logged
          cases judges with
          | succeeded covered => exact beyond.elim
          | failed => exact beyond.elim
          | @overBudget r excess =>
              refine ⟨some (Engine.request job _ _, r), rfl,
                accounts.overBudget underway.running below (Engine.request job _ _) r, ?_⟩
              rintro request r' ⟨⟩
              rw [Budgets.wouldExceedTokens_iff accounts.usage, ← tokensSpent_eq,
                Nat.add_assoc] at excess
              exact excess

end History

end BudgetedRun
