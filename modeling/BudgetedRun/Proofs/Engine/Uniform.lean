import BudgetedRun.Command.Perform
import BudgetedRun.Proofs.Engine.Widening

/-!
# Uniform runs

Where every call costs the same, the end of a run can be computed from the length of the plan and
the budgets (`Engine.execute_uniform`). What a budget pays for is `affordable`. The two limits meet
in it from both sides: before a call nothing of the budget may be left over, after it nothing may be
beyond it, and they agree exactly if the cost divides the budget.
-/

namespace BudgetedRun

/-- How many times a limit pays for some cost, without end if there is no cost. -/
def affordable (limit cost : Nat) : ℕ∞ := if cost = 0 then ⊤ else (limit / cost : Nat)

/-- A number of calls is affordable exactly if their cost is within the limit. -/
theorem le_affordable_iff {limit cost k : Nat} :
    (k : ℕ∞) ≤ affordable limit cost ↔ k * cost ≤ limit := by
  by_cases free : cost = 0
  · rw [affordable, if_pos free, free]
    exact iff_of_true le_top (Nat.zero_le _)
  · rw [affordable, if_neg free, Nat.cast_le, Nat.le_div_iff_mul_le (Nat.pos_of_ne_zero free)]

theorem le_min_affordable_iff {steps iterations limit cost : Nat} :
    (steps : ℕ∞) ≤ min (iterations : ℕ∞) (affordable limit cost) ↔
      steps ≤ iterations ∧ steps * cost ≤ limit := by
  rw [le_min_iff, Nat.cast_le, le_affordable_iff]

/-- A limit pays for so many and no more. -/
theorem affordable_eq {limit cost k : Nat} (within : k * cost ≤ limit)
    (beyond : limit < (k + 1) * cost) : affordable limit cost = k := by
  have costs : cost ≠ 0 := by
    rintro rfl
    exact absurd beyond (Nat.not_lt_zero _)
  rw [affordable, if_neg costs, Nat.div_eq_of_lt_le within beyond]

/-- A limit between two multiples of a cost is none itself. -/
theorem not_dvd_of_between {limit cost k : Nat} (below : k * cost < limit)
    (above : limit < (k + 1) * cost) : ¬cost ∣ limit := by
  rw [Nat.mul_comm] at below above
  exact Nat.not_dvd_of_lt_of_lt_mul_succ below above

/-- All calls were answered, at the same cost. -/
def UniformCalls (input output : UInt64) (calls : List Call) : Prop :=
  ∀ call ∈ calls, ∃ r : Response,
    call.2 = .ok r ∧ r.inputTokens = input ∧ r.outputTokens = output

namespace UniformCalls

variable {input output : UInt64} {calls : List Call}

/-- No uniform call fails. -/
theorem unfailed (uniform : UniformCalls input output calls) :
    calls.filterMap Call.failure? = [] := by
  rw [List.filterMap_eq_nil_iff]
  rintro ⟨request, answer⟩ member
  obtain ⟨r, rfl, -⟩ := uniform _ member
  rfl

/-- The responses are as many as the calls, and each adds the same to the sums. -/
theorem sums (uniform : UniformCalls input output calls) :
    (responses calls).length = calls.length ∧ tokensRead calls = calls.length * input.toNat ∧
      tokensWritten calls = calls.length * output.toNat := by
  rw [tokensRead, tokensWritten]
  induction calls with
  | nil => exact ⟨rfl, (Nat.zero_mul _).symm, (Nat.zero_mul _).symm⟩
  | cons call rest ih =>
      obtain ⟨first, others⟩ := List.forall_mem_cons.mp uniform
      obtain ⟨length, read, written⟩ := ih others
      obtain ⟨request, answer⟩ := call
      obtain ⟨r, rfl, rfl, rfl⟩ := first
      have head : responses ((request, .ok r) :: rest) = r :: responses rest := rfl
      rw [head, List.map_cons, List.map_cons, List.sum_cons, List.sum_cons, List.length_cons,
        List.length_cons, length, read, written]
      refine ⟨rfl, ?_, ?_⟩ <;> ring

/-- Uniform calls cost the same each. -/
theorem tokensSpent_eq (uniform : UniformCalls input output calls) :
    tokensSpent calls = calls.length * (input.toNat + output.toNat) := by
  obtain ⟨-, read, written⟩ := uniform.sums
  rw [BudgetedRun.tokensSpent_eq, read, written, Nat.mul_add]

end UniformCalls

/-- The first of some uniform calls are uniform. -/
theorem UniformCalls.of_prefix {input output : UInt64} {calls earlier later : List Call}
    (uniform : UniformCalls input output calls) (split : calls = earlier ++ later) :
    UniformCalls input output earlier := by
  intro call member
  refine uniform call ?_
  rw [split]
  exact List.mem_append_left _ member

/-- Uniform calls within the budget leave no incident. -/
theorem Accounts.errors_eq_nil {answered : List Call} {s : RunState} {input output : UInt64}
    (accounts : Accounts answered none [] s) (uniform : UniformCalls input output answered) :
    s.errors = [] := by
  have incidents := accounts.incidents
  rw [uniform.unfailed] at incidents
  exact List.map_eq_nil_iff.mp incidents

/-- A uniform call that is rejected leaves the only incident. -/
theorem Accounts.errors_eq_singleton {answered : List Call} {request : Request} {r : Response}
    {s : RunState} {input output : UInt64} (accounts : Accounts answered (some (request, r)) [] s)
    (uniform : UniformCalls input output answered) :
    ∃ incident, s.errors = [incident] ∧ incident.recoverable = false := by
  have incidents := accounts.incidents
  rw [uniform.unfailed] at incidents
  obtain ⟨incident, errors, note⟩ := List.map_eq_singleton_iff.mp incidents
  exact ⟨incident, errors, congrArg Note.recoverable note⟩

/-- How a run ends whose calls all cost the same: it completes, it has used up its iterations or its
tokens, or its last answer was beyond them. -/
inductive UniformEnd (steps iterations limit cost : Nat) (s : RunState) : Prop where
  | completed (within : steps ≤ iterations) (paid : steps * cost ≤ limit)
      (status : s.status = .completed) (index : s.currentStepIndex.toNat = steps)
      (count : s.iterationCount.toNat = steps) (clean : s.errors = [])
  | iterated (short : iterations < steps) (paid : iterations * cost ≤ limit)
      (status : s.status = .stopped) (reason : s.stopReason = some .maxIterations)
      (index : s.currentStepIndex.toNat = iterations)
      (count : s.iterationCount.toNat = iterations) (clean : s.errors = [])
  | spent {k : Nat} (short : k < steps) (before : k < iterations) (paid : k * cost = limit)
      (status : s.status = .stopped) (reason : s.stopReason = some .budgetExhausted)
      (index : s.currentStepIndex.toNat = k) (count : s.iterationCount.toNat = k)
      (clean : s.errors = [])
  | rejected {k : Nat} (short : k < steps) (before : k < iterations) (paid : k * cost < limit)
      (beyond : limit < (k + 1) * cost) (status : s.status = .stopped)
      (reason : s.stopReason = some .budgetExhausted) (index : s.currentStepIndex.toNat = k)
      (count : s.iterationCount.toNat = k + 1)
      (noted : ∃ incident, s.errors = [incident] ∧ incident.recoverable = false)

/-- Which limit a run meets first, in closed form: the steps of the plan, the iterations, or the
calls that the tokens pay for. -/
theorem UniformEnd.closed_form {steps iterations limit cost : Nat} {s : RunState}
    (ends : UniformEnd steps iterations limit cost s) (positive : 0 < limit) :
    ((steps : ℕ∞) ≤ min (iterations : ℕ∞) (affordable limit cost) →
      s.status = .completed ∧ s.currentStepIndex.toNat = steps ∧ s.iterationCount.toNat = steps ∧
        s.errors = []) ∧
    (¬(steps : ℕ∞) ≤ min (iterations : ℕ∞) (affordable limit cost) →
      (iterations : ℕ∞) ≤ affordable limit cost →
      s.status = .stopped ∧ s.stopReason = some .maxIterations ∧
        s.currentStepIndex.toNat = iterations ∧ s.iterationCount.toNat = iterations ∧
        s.errors = []) ∧
    (¬(steps : ℕ∞) ≤ min (iterations : ℕ∞) (affordable limit cost) →
      ¬(iterations : ℕ∞) ≤ affordable limit cost →
      s.status = .stopped ∧ s.stopReason = some .budgetExhausted ∧
        (s.currentStepIndex.toNat : ℕ∞) = affordable limit cost ∧
        (cost ∣ limit → s.iterationCount.toNat = s.currentStepIndex.toNat ∧ s.errors = []) ∧
        (¬cost ∣ limit → s.iterationCount.toNat = s.currentStepIndex.toNat + 1 ∧
          ∃ incident, s.errors = [incident] ∧ incident.recoverable = false)) := by
  rw [le_min_affordable_iff, le_affordable_iff]
  -- What comes after the calls that the tokens pay for is not paid for.
  have unpaid {k m : Nat} (beyond : limit < (k + 1) * cost) (more : k < m) : ¬m * cost ≤ limit :=
    Nat.not_le.mpr (Nat.lt_of_lt_of_le beyond (Nat.mul_le_mul_right cost more))
  cases ends with
  | completed within paid status index count clean =>
      have met := And.intro within paid
      exact ⟨fun _ => ⟨status, index, count, clean⟩, fun unmet => absurd met unmet,
        fun unmet => absurd met unmet⟩
  | iterated short paid status reason index count clean =>
      refine ⟨fun met => ?_, fun _ _ => ⟨status, reason, index, count, clean⟩,
        fun _ unpaid => absurd paid unpaid⟩
      exact absurd met.1 (Nat.not_le.mpr short)
  | @spent k short before paid status reason index count clean =>
      have costs : 0 < cost := by
        rw [← paid] at positive
        exact Nat.pos_of_mul_pos_left positive
      have beyond : limit < (k + 1) * cost := by
        rw [Nat.add_mul, Nat.one_mul, paid]
        exact Nat.lt_add_of_pos_right costs
      refine ⟨fun met => absurd met.2 (unpaid beyond short),
        fun _ met => absurd met (unpaid beyond before), fun _ _ => ⟨status, reason, ?_, ?_, ?_⟩⟩
      · rw [index, affordable_eq (Nat.le_of_eq paid) beyond]
      · exact fun _ => ⟨count.trans index.symm, clean⟩
      · exact fun indivisible => absurd (Dvd.intro_left k paid) indivisible
  | @rejected k short before paid beyond status reason index count noted =>
      refine ⟨fun met => absurd met.2 (unpaid beyond short),
        fun _ met => absurd met (unpaid beyond before), fun _ _ => ⟨status, reason, ?_, ?_, ?_⟩⟩
      · rw [index, affordable_eq (Nat.le_of_lt paid) beyond]
      · exact fun divides => absurd divides (not_dvd_of_between paid beyond)
      · exact fun _ => ⟨count.trans (congrArg (· + 1) index.symm), noted⟩

namespace History

variable {clock : Timestamp → Timestamp → Prop} {budgets : Budgets} {job : Job} {report : Report}
  {earlier later answered : List Call} {call : Call} {input output : UInt64} {s : RunState}

/-- Before every call of a run there are iterations and tokens left. -/
theorem Runs.left_of_call (runs : Runs clock budgets job report)
    (split : report.calls = earlier ++ call :: later) :
    earlier.length < budgets.maxIterations.toNat ∧
      min (tokensSpent earlier) greatestCount < budgets.maxTokens.toNat := by
  obtain ⟨request, answer⟩ := call
  obtain ⟨before, s, boundary, after, place, rfl⟩ := Event.exists_called split
  cases runs.departures before s boundary request answer after place with
  | intro arrives consistent due allowed =>
      obtain ⟨iterations, tokens, -, -⟩ := Budgets.checkStop_eq_none_iff.mp allowed
      have accounts := arrives.accounts
      rw [UInt32.lt_iff_toNat_lt, accounts.iterations] at iterations
      rw [UInt64.lt_iff_toNat_lt, accounts.usage.total, ← tokensSpent_eq] at tokens
      rw [Event.calls_append_wrote]
      exact ⟨iterations, tokens⟩

/-- The calls that a run makes first are no more than its iterations and the steps of its plan. -/
theorem Runs.length_le_of_uniform (runs : Runs clock budgets job report)
    (uniform : UniformCalls input output report.calls) (split : report.calls = earlier ++ later) :
    earlier.length ≤ budgets.maxIterations.toNat ∧ earlier.length ≤ job.plan.steps.length := by
  rcases List.eq_nil_or_concat earlier with rfl | ⟨before, call, rfl⟩
  · exact ⟨Nat.zero_le _, Nat.zero_le _⟩
  · rw [List.concat_eq_append, List.append_assoc, List.singleton_append] at split
    have left := runs.left_of_call split
    have unfinished := runs.unfinished_of_call split
    rw [(uniform.of_prefix split).sums.1] at unfinished
    rw [List.length_concat]
    exact ⟨left.1, unfinished⟩

/-- A run whose last answer is rejected stops short of all its limits, and one more answer would be
beyond the tokens. -/
theorem Runs.short_of_rejected {rejection : Request × Response}
    (runs : Runs clock budgets job report) (uniform : UniformCalls input output report.calls)
    (billed : Billed budgets report.calls answered (some rejection))
    (bounded : budgets.maxTokens.toNat < greatestCount) :
    answered.length < job.plan.steps.length ∧ answered.length < budgets.maxIterations.toNat ∧
      answered.length * (input.toNat + output.toNat) < budgets.maxTokens.toNat ∧
      budgets.maxTokens.toNat < (answered.length + 1) * (input.toNat + output.toNat) := by
  obtain ⟨request, r⟩ := rejection
  have same := uniform.of_prefix billed.calls_eq
  have unfinished := runs.unfinished_of_call billed.calls_eq
  obtain ⟨left, unspent⟩ := runs.left_of_call billed.calls_eq
  have beyond := billed.beyond request r rfl
  have member : (request, .ok r) ∈ report.calls := by
    rw [billed.calls_eq]
    exact List.mem_append_right _ List.mem_cons_self
  obtain ⟨r', ⟨⟩, rfl, rfl⟩ := uniform _ member
  rw [same.sums.1] at unfinished
  rw [same.tokensSpent_eq] at unspent beyond
  rw [Response.cost] at beyond
  refine ⟨unfinished, left, by omega, ?_⟩
  rw [Nat.add_mul, Nat.one_mul]
  omega

/-- How a run leaves, by the number of its calls. -/
theorem leaving_uniform (accounts : Accounts answered none [] s)
    (same : UniformCalls input output answered)
    (paid : answered.length * (input.toNat + output.toNat) ≤ budgets.maxTokens.toNat)
    (bounded : budgets.maxTokens.toNat < greatestCount) :
    leaving budgets job s false =
      if job.plan.steps.length ≤ answered.length then .complete
      else if budgets.maxIterations.toNat ≤ answered.length then .stop ⟨.maxIterations, none⟩
      else if budgets.maxTokens.toNat ≤ answered.length * (input.toNat + output.toNat) then
        .stop ⟨.budgetExhausted, none⟩
      else .stop ⟨.cancelled, some "run cancelled"⟩ := by
  obtain ⟨length, read, written⟩ := same.sums
  have count : s.iterationCount.toNat = answered.length := accounts.iterations
  have total : s.tokenUsage.total.toNat = answered.length * (input.toNat + output.toNat) := by
    rw [accounts.usage.total, ← tokensSpent_eq, same.tokensSpent_eq]
    omega
  rw [leaving, accounts.index, length, if_neg Bool.false_ne_true]
  simp only [UInt32.le_iff_toNat_le, UInt64.le_iff_toNat_le, count, total]

/-- A run that leaves without an answer that is rejected ends by the first limit that it has met. -/
theorem uniform_end_unrejected {arrived last : RunState} {now : Timestamp}
    (before : Accounts answered none [] arrived) (goesOn : Underway job last)
    (accounts : Accounts answered none [] last) (same : UniformCalls input output answered)
    (paid : answered.length * (input.toNat + output.toNat) ≤ budgets.maxTokens.toNat)
    (within : answered.length ≤ budgets.maxIterations.toNat)
    (inPlan : answered.length ≤ job.plan.steps.length)
    (bounded : budgets.maxTokens.toNat < greatestCount)
    (uncancelled : (Engine.finishState last (leaving budgets job arrived false) now).stopReason ≠
      some .cancelled) :
    UniformEnd job.plan.steps.length budgets.maxIterations.toNat budgets.maxTokens.toNat
      (input.toNat + output.toNat)
      (Engine.finishState last (leaving budgets job arrived false) now) := by
  have index := accounts.index.trans same.sums.1
  have count : last.iterationCount.toNat = answered.length := accounts.iterations
  have clean := accounts.errors_eq_nil same
  rw [leaving_uniform before same paid bounded] at uncancelled ⊢
  by_cases done : job.plan.steps.length ≤ answered.length
  · rw [Nat.le_antisymm inPlan done] at within paid index count
    rw [if_pos done, Engine.finishState, RunState.complete_of_running goesOn.running]
    exact .completed within paid rfl index count clean
  have short := Nat.not_le.mp done
  rw [if_neg done] at uncancelled ⊢
  by_cases iterations : budgets.maxIterations.toNat ≤ answered.length
  · rw [Nat.le_antisymm within iterations] at short paid index count
    rw [if_pos iterations, Engine.finishState, RunState.stop_of_running goesOn.running]
    exact .iterated short paid rfl rfl index count ((List.append_nil _).trans clean)
  have left := Nat.not_le.mp iterations
  rw [if_neg iterations] at uncancelled ⊢
  by_cases tokens : budgets.maxTokens.toNat ≤ answered.length * (input.toNat + output.toNat)
  · rw [if_pos tokens, Engine.finishState, RunState.stop_of_running goesOn.running]
    exact .spent short left (Nat.le_antisymm paid tokens) rfl rfl index count
      ((List.append_nil _).trans clean)
  · rw [if_neg tokens, Engine.finishState, RunState.stop_of_running goesOn.running] at uncancelled
    exact absurd rfl uncancelled

/-- A run whose last answer is rejected ends by its tokens. -/
theorem uniform_end_rejected {rejection : Request × Response} {arrived last : RunState}
    {now : Timestamp} (runs : Runs clock budgets job report)
    (uniform : UniformCalls input output report.calls)
    (billed : Billed budgets report.calls answered (some rejection))
    (before : Accounts answered none [] arrived) (goesOn : Underway job last)
    (accounts : Accounts answered (some rejection) [] last)
    (bounded : budgets.maxTokens.toNat < greatestCount) :
    UniformEnd job.plan.steps.length budgets.maxIterations.toNat budgets.maxTokens.toNat
      (input.toNat + output.toNat)
      (Engine.finishState last (leaving budgets job arrived true) now) := by
  have same := uniform.of_prefix billed.calls_eq
  have index := accounts.index.trans same.sums.1
  obtain ⟨short, left, unspent, beyond⟩ := runs.short_of_rejected uniform billed bounded
  obtain ⟨incident, errors, grave⟩ := accounts.errors_eq_singleton same
  rw [leaving, before.index, same.sums.1, if_neg (Nat.not_le.mpr short), if_pos rfl,
    Engine.finishState, RunState.stop_of_running goesOn.running]
  exact .rejected short left unspent beyond rfl rfl index accounts.iterations
    ⟨incident, (List.append_nil _).trans errors, grave⟩

/-- A run whose calls all cost the same ends in one of the four ways, unless it is cancelled, and
its tokens are the same multiple of the cost as its index. -/
theorem Settles.uniform_end (settles : Settles budgets job report.calls (.ok s))
    (runs : Runs clock budgets job report) (uniform : UniformCalls input output report.calls)
    (bounded : budgets.maxTokens.toNat < greatestCount)
    (uncancelled : s.stopReason ≠ some .cancelled) :
    UniformEnd job.plan.steps.length budgets.maxIterations.toNat budgets.maxTokens.toNat
        (input.toNat + output.toNat) s ∧
      s.tokenUsage.input.toNat = s.currentStepIndex.toNat * input.toNat ∧
      s.tokenUsage.output.toNat = s.currentStepIndex.toNat * output.toNat ∧
      s.tokenUsage.total.toNat = s.currentStepIndex.toNat * (input.toNat + output.toNat) := by
  cases settles with
  | @intro answered rejected arrived last now billed _ before goesOn accounts =>
      have same := uniform.of_prefix billed.calls_eq
      obtain ⟨length, read, written⟩ := same.sums
      have paid := (billed.covered bounded).tokensSpent_le
      rw [same.tokensSpent_eq] at paid
      have finished : Accounts answered rejected
          (leaving budgets job arrived rejected.isSome).closing
          (Engine.finishState last (leaving budgets job arrived rejected.isSome) now) :=
        accounts.finish goesOn.running _
      obtain ⟨inputs, outputs, total⟩ := finished.usage.toNat_eq (by
        rw [read, written, ← Nat.mul_add]
        omega)
      rw [finished.index, inputs, outputs, total, length, read, written]
      refine ⟨?_, rfl, rfl, (Nat.mul_add _ _ _).symm⟩
      cases rejected with
      | some rejection =>
          exact uniform_end_rejected runs uniform billed before goesOn accounts bounded
      | none =>
          obtain ⟨within, inPlan⟩ := runs.length_le_of_uniform uniform billed.calls_eq
          exact uniform_end_unrejected before goesOn accounts same paid within inPlan bounded
            uncancelled

end History

namespace Command

variable {config : Config} {machine : Machine} {readings : Nat → Timestamp} {n : Nat}

/-- A run whose states are not kept is answered alike at every step, and all of them are saved. -/
theorem environment_plays (config : Config) (machine : Machine) :
    (environment config .memory : Environment (StateM Machine)).Plays
      (fun _ request => MockProvider.answer ⟨config.mock, []⟩ request) (fun _ => false)
      machine where
  answered _ _ _ _ := rfl
  wished _ _ _ := rfl
  saved _ _ _ _ := rfl

theorem respects_readings (config : Config) :
    (environment config .memory : Environment (StateM Machine)).Respects (fun _ => True)
      (Machine.Shows readings n) where
  now machine shows := Machine.keeps_now machine shows
  steady machine shows := (Machine.keeps_steady machine shows).2
  cancelled _ shows := shows
  call _ machine shows := (Machine.keeps_sleep _ machine shows).2
  save _ _ shows := shows

/-- The surroundings of a run are forward if the readings of the clock never go back. -/
theorem environment_forward
    (forward : ∀ i j, i ≤ j → machine.dayClock i ≤ machine.dayClock j) :
    (environment config .memory : Environment (StateM Machine)).Forward machine := by
  intro first second reached later
  have before : Machine.Shows machine.dayClock 0 first :=
    reached.good (respects_readings config) ⟨rfl, Nat.zero_le _⟩
  have after : Machine.Shows machine.dayClock (first.readings + 1) second :=
    later.good (respects_readings config) ⟨before.dayClock, Nat.le_refl _⟩
  change first.dayClock first.readings ≤ second.dayClock second.readings
  rw [before.dayClock, after.dayClock]
  exact forward _ _ (Nat.le_of_succ_le after.readings)

end Command

namespace Engine

open History

variable {σ : Type} {env : Environment (StateM σ)} {budgets : Budgets} {job : Job} {w : σ}
  {provider : MockProvider}

/-- A provider that answers every step alike, and does not fail any step of the plan, makes the
calls of a run uniform. -/
theorem uniform_calls (valid : job.plan.validate = .ok ())
    (plays : env.Plays (fun _ request => provider.answer request) (fun _ => false) w)
    (unfailing : ∀ step ∈ job.plan.steps, step.id ∉ provider.failingSteps) :
    UniformCalls provider.settings.inputTokens provider.settings.outputTokens
      (report env budgets job w).calls := by
  rintro ⟨request, answer⟩ member
  obtain ⟨earlier, later, split⟩ := List.append_of_mem member
  have given : answer = provider.answer request := report_follows plays valid _ _ _ _ split
  obtain ⟨step, due, rfl⟩ := (report_runs env budgets job w).request_eq split
  have succeeds : (request job (responses earlier).length step).stepId ∉ provider.failingSteps :=
    unfailing step (List.mem_of_getElem? due)
  rw [MockProvider.answer, if_neg succeeds] at given
  exact ⟨_, given, rfl, rfl⟩

/-- The closed form of a uniform run. A run of a plan, with a provider that answers all of its steps
alike, a store that saves all, no limit on time, a time of day that does not go back and nobody who
wants it to end, comes as far as the least of three numbers: the steps of the plan, the iterations,
and the calls that the tokens pay for. It completes if the first one is met first, however close the
others are. Otherwise it stops, for the iterations if they are met no later than the tokens, and for
the tokens if not, and then it has made one more call, which is rejected and noted, exactly if the
cost of a call does not divide the tokens. Its own tokens are those of the calls that were
accepted. -/
theorem execute_uniform (valid : job.plan.validate = .ok ()) (named : job.runId ≠ "")
    (bounded : budgets.maxTokens.toNat < greatestCount) (unlimited : budgets.timeLimit = none)
    (forward : env.Forward w)
    (plays : env.Plays (fun _ request => provider.answer request) (fun _ => false) w)
    (unfailing : ∀ step ∈ job.plan.steps, step.id ∉ provider.failingSteps) :
    let steps := job.plan.steps.length
    let iterations := budgets.maxIterations.toNat
    let limit := budgets.maxTokens.toNat
    let input := provider.settings.inputTokens.toNat
    let output := provider.settings.outputTokens.toNat
    let paid := affordable limit (input + output)
    ∃ s, (report env budgets job w).result = .ok s ∧
      ((steps : ℕ∞) ≤ min (iterations : ℕ∞) paid →
        s.status = .completed ∧ s.currentStepIndex.toNat = steps ∧ s.iterationCount.toNat = steps ∧
          s.errors = []) ∧
      (¬(steps : ℕ∞) ≤ min (iterations : ℕ∞) paid → (iterations : ℕ∞) ≤ paid →
        s.status = .stopped ∧ s.stopReason = some .maxIterations ∧
          s.currentStepIndex.toNat = iterations ∧ s.iterationCount.toNat = iterations ∧
          s.errors = []) ∧
      (¬(steps : ℕ∞) ≤ min (iterations : ℕ∞) paid → ¬(iterations : ℕ∞) ≤ paid →
        s.status = .stopped ∧ s.stopReason = some .budgetExhausted ∧
          (s.currentStepIndex.toNat : ℕ∞) = paid ∧
          (input + output ∣ limit →
            s.iterationCount.toNat = s.currentStepIndex.toNat ∧ s.errors = []) ∧
          (¬input + output ∣ limit → s.iterationCount.toNat = s.currentStepIndex.toNat + 1 ∧
            ∃ incident, s.errors = [incident] ∧ incident.recoverable = false)) ∧
      s.tokenUsage.input.toNat = s.currentStepIndex.toNat * input ∧
      s.tokenUsage.output.toNat = s.currentStepIndex.toNat * output ∧
      s.tokenUsage.total.toNat = s.currentStepIndex.toNat * (input + output) := by
  intro steps iterations limit input output paid
  have runs := report_runs_forward env budgets job forward
  have uniform : UniformCalls _ _ (report env budgets job w).calls :=
    uniform_calls valid plays unfailing
  have settles := (runs.ends valid (report_kept plays valid)).settles named
    (Plan.id_ne_empty valid) bounded unlimited
  obtain ⟨s, finished⟩ := settles.finished
  rw [finished] at settles
  have uncancelled : s.stopReason ≠ some .cancelled := by
    intro cancelled
    have wished := report_wished plays valid finished cancelled
    cases wished
  have positive : 0 < limit := by
    refine Nat.pos_of_ne_zero fun none => budgets.tokens_ne_zero ?_
    exact UInt64.toNat_inj.mp none
  obtain ⟨ends, inputs, outputs, total⟩ := settles.uniform_end runs uniform bounded uncancelled
  obtain ⟨completes, iterates, exhausts⟩ := ends.closed_form positive
  exact ⟨s, finished, completes, iterates, exhausts, inputs, outputs, total⟩

/-- In a rehearsal in which the first of two calls costs all of the tokens, the run stops after it,
and nothing is rejected. -/
theorem rehearsal_uniform :
    let config : Config := { Config.standard with mock := ⟨"ok", 9, 9, 0⟩ }
    let env : Environment (StateM Machine) := Command.environment config .memory
    ∃ s, (report env .scant .rehearsal (World.rehearsal [] .none).machine).result = .ok s ∧
      s.stopReason = some .budgetExhausted ∧
      (s.currentStepIndex.toNat : ℕ∞) = affordable 18 18 ∧ s.iterationCount.toNat = 1 ∧
      s.errors = [] := by
  intro config env
  have forward : env.Forward (World.rehearsal [] .none).machine := by
    apply Command.environment_forward
    intro i j _
    exact Timestamp.le_refl World.dawn
  have plays := Command.environment_plays config (World.rehearsal [] .none).machine
  have bounded : Budgets.scant.maxTokens.toNat < greatestCount := by decide
  have one : affordable 18 18 = (1 : Nat) := affordable_eq (by decide) (by decide)
  obtain ⟨s, finished, -, -, exhausts, -⟩ := execute_uniform Job.rehearsal_valid (by decide) bounded
    rfl forward plays fun _ _ => List.not_mem_nil
  obtain ⟨-, reason, index, divided, -⟩ := exhausts
    (by rw [le_min_affordable_iff]; decide) (by rw [le_affordable_iff]; decide)
  obtain ⟨count, clean⟩ := divided (Nat.dvd_refl 18)
  refine ⟨s, finished, reason, index, ?_, clean⟩
  rw [count]
  exact Nat.cast_injective (index.trans one)

end Engine

end BudgetedRun
