import BudgetedRun.Proofs.Run.Budget

/-!
# Reasons to end a run

At a boundary the reasons to end a run are asked for in turn, and the first one that is due is given
(`Budgets.exists_checkStop`). A reason that is due stays so as the run goes on, and it is due under
tighter budgets too (`Budgets.Due.mono`). So a decision to end is never taken back, and only an
earlier reason takes the place of the one that was given (`Budgets.checkStop_sharpens`).
-/

namespace BudgetedRun

/-- When a reason is asked for: first the iterations, then the tokens, the time and the wish to
cancel. -/
def StopReason.turn : StopReason → Nat
  | maxIterations => 0
  | budgetExhausted => 1
  | error => 2
  | cancelled => 3

namespace Budgets

/-- There is a reason to end a run at a boundary. -/
def Due (b : Budgets) (s : RunState) (elapsed : Duration) (cancelled : Bool) : StopReason → Prop
  | .maxIterations => b.maxIterations ≤ s.iterationCount
  | .budgetExhausted => b.maxTokens ≤ s.tokenUsage.total
  | .error => ∃ limit, b.timeLimit = some limit ∧ limit < elapsed
  | .cancelled => cancelled = true

/-- No limit is above that of some other budgets. Any time limit is below none at all. -/
structure Within (b' b : Budgets) : Prop where
  iterations : b'.maxIterations ≤ b.maxIterations
  tokens : b'.maxTokens ≤ b.maxTokens
  time : ∀ limit, b.timeLimit = some limit → ∃ limit', b'.timeLimit = some limit' ∧ limit' ≤ limit

variable {b b' : Budgets} {s s' : RunState} {elapsed elapsed' : Duration}
  {cancelled cancelled' : Bool} {reason : StopReason} {decision : StopDecision}

/-- The reason that is given is due. -/
theorem due_of_checkStop (decided : b.checkStop s elapsed cancelled = some decision) :
    b.Due s elapsed cancelled decision.reason := by
  rcases checkStop_eq_some decided with
    ⟨iterations, rfl⟩ | ⟨tokens, rfl⟩ | ⟨limit, limited, exceeded, rfl⟩ | ⟨wished, rfl⟩
  · exact iterations
  · exact tokens
  · exact ⟨limit, limited, exceeded⟩
  · exact wished

/-- Where a reason is due, it is given, or an earlier one. -/
theorem exists_checkStop (due : b.Due s elapsed cancelled reason) :
    ∃ decision, b.checkStop s elapsed cancelled = some decision ∧
      decision.reason.turn ≤ reason.turn := by
  rw [checkStop]
  split
  · exact ⟨_, rfl, Nat.zero_le _⟩
  rename_i iterations
  split
  · refine ⟨_, rfl, ?_⟩
    cases reason with
    | maxIterations => exact absurd due iterations
    | budgetExhausted => decide
    | error => decide
    | cancelled => decide
  rename_i tokens
  split
  · refine ⟨_, rfl, ?_⟩
    cases reason with
    | maxIterations => exact absurd due iterations
    | budgetExhausted => exact absurd due tokens
    | error => exact Nat.le_refl _
    | cancelled => exact Nat.le_succ _
  rename_i inTime
  cases reason with
  | maxIterations => exact absurd due iterations
  | budgetExhausted => exact absurd due tokens
  | error =>
      obtain ⟨limit, limited, exceeded⟩ := due
      exact absurd exceeded (Nat.not_lt.mpr (exceededTime?_eq_none_iff.mp inTime limit limited))
  | cancelled => exact ⟨_, if_pos due, Nat.le_refl _⟩

/-- A reason that is due stays so: with more iterations, tokens and time, under tighter budgets, as
long as a wish to cancel is not taken back. -/
theorem Due.mono (tighter : b'.Within b) (iterations : s.iterationCount ≤ s'.iterationCount)
    (tokens : s.tokenUsage.total ≤ s'.tokenUsage.total) (time : elapsed ≤ elapsed')
    (wish : cancelled = true → cancelled' = true) (due : b.Due s elapsed cancelled reason) :
    b'.Due s' elapsed' cancelled' reason := by
  cases reason with
  | maxIterations => exact UInt32.le_trans tighter.iterations (UInt32.le_trans due iterations)
  | budgetExhausted => exact UInt64.le_trans tighter.tokens (UInt64.le_trans due tokens)
  | error =>
      obtain ⟨limit, limited, exceeded⟩ := due
      obtain ⟨limit', limited', shorter⟩ := tighter.time limit limited
      exact ⟨limit', limited', Nat.lt_of_le_of_lt shorter (Nat.lt_of_lt_of_le exceeded time)⟩
  | cancelled => exact wish due

/-- **A decision to end a run is permanent and only sharpens.** Later, and under tighter budgets,
the run has to end too, for the same reason or one that is asked for earlier. -/
theorem checkStop_sharpens (tighter : b'.Within b)
    (iterations : s.iterationCount ≤ s'.iterationCount)
    (tokens : s.tokenUsage.total ≤ s'.tokenUsage.total) (time : elapsed ≤ elapsed')
    (wish : cancelled = true → cancelled' = true)
    (decided : b.checkStop s elapsed cancelled = some decision) :
    ∃ decision', b'.checkStop s' elapsed' cancelled' = some decision' ∧
      decision'.reason.turn ≤ decision.reason.turn :=
  exists_checkStop ((due_of_checkStop decided).mono tighter iterations tokens time wish)

/-- Somebody wants a run to end. Later, and under tighter budgets, it is out of tokens and of time
too, and the tokens are the reason that is given. -/
theorem checkStop_sharpens_cancelled :
    let now : Timestamp := ⟨⟨2025, 1, 1⟩, ⟨6, 0, 0, 0⟩, by decide, by decide⟩
    let s : RunState := .start "run" "plan" now
    let s' : RunState := { s with iterationCount := 1, tokenUsage := .of 6 4 }
    let wide : Budgets := ⟨⟨3, 20, none⟩, by decide, by decide, by decide⟩
    let tight : Budgets := ⟨⟨3, 10, some 5⟩, by decide, by decide, by decide⟩
    tight.Within wide ∧
      wide.checkStop s (.ofMillis 1) true = some ⟨.cancelled, some "run cancelled"⟩ ∧
      tight.checkStop s' (.ofMillis 6) true = some ⟨.budgetExhausted, none⟩ ∧
      ∃ decision, tight.checkStop s' (.ofMillis 6) true = some decision ∧
        decision.reason.turn ≤ StopReason.cancelled.turn := by
  intro now s s' wide tight
  have tighter : tight.Within wide := by
    refine ⟨by decide, by decide, fun limit unlimited => ?_⟩
    cases unlimited
  have decided : wide.checkStop s (.ofMillis 1) true =
      some ⟨.cancelled, some "run cancelled"⟩ := rfl
  refine ⟨tighter, decided, rfl, ?_⟩
  exact checkStop_sharpens tighter (by decide) (by decide) (by decide) id decided

end Budgets

end BudgetedRun
