import BudgetedRun.Run.Budget

/-!
# Budgets against unbounded sums

Token counts stop at the greatest 64-bit number, while what a run has spent is a sum of natural
numbers. `TokenUsage.Counts` says which sums a usage stands for; adding to a usage adds to the sums.
From this follow when a usage is no longer the sum of its parts and when an answer is beyond a
budget, both in terms of the sums alone. `Budgets.checkStop_eq_none_iff` says when a run may go on.
-/

namespace BudgetedRun

/-- The greatest token count. -/
def greatestCount : Nat := 0xFFFFFFFFFFFFFFFF

/-- No count is above the greatest one. -/
theorem toNat_le_greatestCount (n : UInt64) : n.toNat ≤ greatestCount := by
  have below := n.toNat_lt
  simp only [greatestCount]
  omega

namespace TokenUsage

/-- A usage stands for some tokens read and some written: each of its numbers is the exact one, cut
off at the greatest count. -/
structure Counts (u : TokenUsage) (read written : Nat) : Prop where
  input : u.input.toNat = min read greatestCount
  output : u.output.toNat = min written greatestCount
  total : u.total.toNat = min (read + written) greatestCount

namespace Counts

variable {u : TokenUsage} {read written : Nat}

/-- The usage of a new run counts no tokens. -/
theorem zero : TokenUsage.zero.Counts 0 0 := by
  constructor <;> rfl

/-- Adding to a usage adds to what it stands for: cutting off early loses nothing. -/
theorem add (counts : u.Counts read written) (more extra : UInt64) :
    (u.add more extra).Counts (read + more.toNat) (written + extra.toNat) := by
  have moreBound := toNat_le_greatestCount more
  have extraBound := toNat_le_greatestCount extra
  constructor
  · simp only [TokenUsage.add, of, toNat_addCapped, counts.input, greatestCount]
    omega
  · simp only [TokenUsage.add, of, toNat_addCapped, counts.output, greatestCount]
    omega
  · simp only [TokenUsage.add, of, toNat_addCapped, counts.input, counts.output, greatestCount]
    omega

/-- The total is not the sum of input and output exactly when that sum is beyond the greatest
count, each part being cut off before. -/
theorem mismatch_iff (counts : u.Counts read written) :
    u.input.toNat + u.output.toNat ≠ u.total.toNat ↔
      greatestCount < min read greatestCount + min written greatestCount := by
  rw [counts.input, counts.output, counts.total]
  omega

/-- Tokens that are not above the greatest count are recorded exactly. -/
theorem toNat_eq (counts : u.Counts read written) (below : read + written ≤ greatestCount) :
    u.input.toNat = read ∧ u.output.toNat = written ∧ u.total.toNat = read + written := by
  refine ⟨counts.input.trans ?_, counts.output.trans ?_, counts.total.trans ?_⟩ <;> omega

/-- A usage is determined by what it stands for. -/
theorem unique {v : TokenUsage} (first : u.Counts read written) (second : v.Counts read written) :
    u = v := by
  obtain ⟨input, output, total⟩ := u
  obtain ⟨input', output', total'⟩ := v
  obtain rfl := UInt64.toNat_inj.mp (first.input.trans second.input.symm)
  obtain rfl := UInt64.toNat_inj.mp (first.output.trans second.output.symm)
  obtain rfl := UInt64.toNat_inj.mp (first.total.trans second.total.symm)
  rfl

end Counts

end TokenUsage

namespace Budgets

variable {b : Budgets} {s : RunState} {read written : Nat}

/-- An answer is beyond the budget exactly when all tokens together are, cut off at the greatest
count. -/
theorem wouldExceedTokens_iff (counts : s.tokenUsage.Counts read written) (more extra : UInt64) :
    b.wouldExceedTokens s (addCapped more extra) = true ↔
      b.maxTokens.toNat < min (read + written + more.toNat + extra.toNat) greatestCount := by
  simp only [wouldExceedTokens, decide_eq_true_eq, UInt64.lt_iff_toNat_lt, toNat_addCapped,
    counts.total, greatestCount]
  omega

/-- A limit below the greatest count is exceeded exactly if the sum of all tokens is above it. -/
theorem wouldExceedTokens_iff_of_lt (counts : s.tokenUsage.Counts read written)
    (bounded : b.maxTokens.toNat < greatestCount) (more extra : UInt64) :
    b.wouldExceedTokens s (addCapped more extra) = true ↔
      b.maxTokens.toNat < read + written + more.toNat + extra.toNat := by
  rw [wouldExceedTokens_iff counts]
  omega

/-- The time of a budget is not exceeded exactly if no more has passed than its limit. -/
theorem exceededTime?_eq_none_iff {elapsed : Duration} :
    b.exceededTime? elapsed = none ↔ ∀ limit, b.timeLimit = some limit → elapsed ≤ limit := by
  rw [exceededTime?, Option.filter_eq_none_iff]
  constructor
  · intro within limit isLimit
    exact Nat.not_lt.mp (of_decide_eq_false (Bool.not_eq_true _ ▸ within limit isLimit))
  · intro within limit isLimit exceeded
    exact Nat.not_lt.mpr (within limit isLimit) (of_decide_eq_true exceeded)

/-- A run may go on exactly when there are iterations, tokens and time left and nobody wants it to
end. -/
theorem checkStop_eq_none_iff {elapsed : Duration} {cancelled : Bool} :
    b.checkStop s elapsed cancelled = none ↔
      s.iterationCount < b.maxIterations ∧ s.tokenUsage.total < b.maxTokens ∧
        (∀ limit, b.timeLimit = some limit → elapsed ≤ limit) ∧ cancelled = false := by
  rw [checkStop, ← exceededTime?_eq_none_iff]
  by_cases iterations : b.maxIterations ≤ s.iterationCount
  · simp only [iterations, ↓reduceIte, reduceCtorEq, ← UInt32.not_le, not_true_eq_false, false_and]
  · by_cases tokens : b.maxTokens ≤ s.tokenUsage.total
    · simp only [iterations, tokens, ↓reduceIte, reduceCtorEq, ← UInt64.not_le, not_true_eq_false,
        false_and, and_false]
    · cases time : b.exceededTime? elapsed <;> cases cancelled <;>
        simp [iterations, tokens, UInt32.not_le.mp iterations, UInt64.not_le.mp tokens]

/-- A run that may not go on has used up its iterations, its tokens or its time, or somebody wants
it to end; the first of these is the reason. -/
theorem checkStop_eq_some {elapsed : Duration} {cancelled : Bool} {decision : StopDecision}
    (decided : b.checkStop s elapsed cancelled = some decision) :
    b.maxIterations ≤ s.iterationCount ∧ decision = ⟨.maxIterations, none⟩ ∨
      b.maxTokens ≤ s.tokenUsage.total ∧ decision = ⟨.budgetExhausted, none⟩ ∨
      (∃ limit, b.timeLimit = some limit ∧ limit < elapsed ∧
        decision = ⟨.error, some (timeoutDetail elapsed limit)⟩) ∨
      cancelled = true ∧ decision = ⟨.cancelled, some "run cancelled"⟩ := by
  rw [checkStop] at decided
  split at decided
  · rename_i iterations
    exact .inl ⟨iterations, (Option.some.inj decided).symm⟩
  · split at decided
    · rename_i tokens
      exact .inr (.inl ⟨tokens, (Option.some.inj decided).symm⟩)
    · split at decided
      · rename_i limit time
        obtain ⟨limited, exceeded⟩ := Option.filter_eq_some_iff.mp time
        refine .inr (.inr (.inl ⟨limit, limited, of_decide_eq_true exceeded, ?_⟩))
        exact (Option.some.inj decided).symm
      · cases cancelled with
        | false => cases decided
        | true => exact .inr (.inr (.inr ⟨rfl, (Option.some.inj decided).symm⟩))

end Budgets

end BudgetedRun
