import BudgetedRun.Proofs.Run.Budget
import Mathlib.Algebra.Ring.Nat

/-!
# Reports of tokens

Tokens are reported one answer at a time, and every sum on the way may be cut off. Still a usage to
which reports are added stands for their exact sums, so their order does not matter and nothing in
it ever goes down (`TokenUsage.addAll_exact`); and the question whether an answer fits a budget,
which is asked before its tokens are added, has the answer that the usage afterwards gives
(`Budgets.wouldExceedTokens_foretells_add`).
-/

namespace BudgetedRun

namespace TokenUsage

variable {u v : TokenUsage} {read written read' written' : Nat}

/-- The total is the sum of input and output, cut off at the greatest count. -/
def Balanced (u : TokenUsage) : Prop :=
  u.total.toNat = min (u.input.toNat + u.output.toNat) greatestCount

/-- A usage of two counts is balanced. -/
theorem balanced_of (input output : UInt64) : (of input output).Balanced :=
  toNat_addCapped input output

/-- A usage to which two counts are added is balanced. -/
theorem balanced_add (u : TokenUsage) (input output : UInt64) : (u.add input output).Balanced :=
  balanced_of _ _

/-- A balanced usage stands for its own input and output. -/
theorem Balanced.counts (balanced : u.Balanced) : u.Counts u.input.toNat u.output.toNat where
  input := (Nat.min_eq_left (toNat_le_greatestCount _)).symm
  output := (Nat.min_eq_left (toNat_le_greatestCount _)).symm
  total := balanced

/-- The usage after some reports of tokens read and written, one after another. -/
def addAll (u : TokenUsage) (reports : List (UInt64 × UInt64)) : TokenUsage :=
  reports.foldl (fun u report => u.add report.1 report.2) u

/-- The tokens read, by some reports. -/
def readIn (reports : List (UInt64 × UInt64)) : Nat :=
  (reports.map fun report => report.1.toNat).sum

/-- The tokens written, by some reports. -/
def writtenIn (reports : List (UInt64 × UInt64)) : Nat :=
  (reports.map fun report => report.2.toNat).sum

theorem readIn_append (earlier later : List (UInt64 × UInt64)) :
    readIn (earlier ++ later) = readIn earlier + readIn later := by
  rw [readIn, List.map_append, List.sum_append]
  rfl

theorem writtenIn_append (earlier later : List (UInt64 × UInt64)) :
    writtenIn (earlier ++ later) = writtenIn earlier + writtenIn later := by
  rw [writtenIn, List.map_append, List.sum_append]
  rfl

namespace Counts

/-- Adding reports to a usage adds their exact sums to what it stands for. -/
theorem addAll (counts : u.Counts read written) (reports : List (UInt64 × UInt64)) :
    (u.addAll reports).Counts (read + readIn reports) (written + writtenIn reports) := by
  induction reports generalizing u read written with
  | nil => exact counts
  | cons report reports ih =>
      have after := ih (counts.add report.1 report.2)
      rw [Nat.add_assoc, Nat.add_assoc] at after
      exact after

/-- A usage that stands for more has nothing less. -/
theorem le (counts : u.Counts read written) (counts' : v.Counts read' written')
    (more : read ≤ read') (extra : written ≤ written') :
    u.input ≤ v.input ∧ u.output ≤ v.output ∧ u.total ≤ v.total := by
  simp only [UInt64.le_iff_toNat_le, counts.input, counts.output, counts.total, counts'.input,
    counts'.output, counts'.total]
  omega

end Counts

/-- **Reports add up exactly**, each number being cut off at the greatest count only at the end; so
their order does not matter, and no number is smaller after more of them. -/
theorem addAll_exact (reports : List (UInt64 × UInt64)) :
    (zero.addAll reports).input.toNat = min (readIn reports) greatestCount ∧
    (zero.addAll reports).output.toNat = min (writtenIn reports) greatestCount ∧
    (zero.addAll reports).total.toNat = min (readIn reports + writtenIn reports) greatestCount ∧
    (∀ reordered, reordered.Perm reports → zero.addAll reordered = zero.addAll reports) ∧
    ∀ more,
      (zero.addAll reports).input ≤ (zero.addAll (reports ++ more)).input ∧
      (zero.addAll reports).output ≤ (zero.addAll (reports ++ more)).output ∧
      (zero.addAll reports).total ≤ (zero.addAll (reports ++ more)).total := by
  have counts (reports : List (UInt64 × UInt64)) :
      (zero.addAll reports).Counts (readIn reports) (writtenIn reports) := by
    have sums := Counts.zero.addAll reports
    rwa [Nat.zero_add, Nat.zero_add] at sums
  refine ⟨(counts reports).input, (counts reports).output, (counts reports).total,
    fun reordered same => ?_, fun more => ?_⟩
  · have read : readIn reordered = readIn reports := (same.map _).sum_nat
    have written : writtenIn reordered = writtenIn reports := (same.map _).sum_nat
    exact (read ▸ written ▸ counts reordered).unique (counts reports)
  · refine (counts reports).le (counts (reports ++ more)) ?_ ?_
    · rw [readIn_append]
      exact Nat.le_add_right _ _
    · rw [writtenIn_append]
      exact Nat.le_add_right _ _

/-- Two reports, each of which alone is near the greatest count, come to the same in either order:
nothing is cut off of the input, and the total is cut off. -/
theorem addAll_exact_reordered :
    let reports : List (UInt64 × UInt64) := [(3, 18446744073709551615), (18446744073709551612, 1)]
    let reordered : List (UInt64 × UInt64) := [(18446744073709551612, 1), (3, 18446744073709551615)]
    reordered.Perm reports ∧ zero.addAll reordered = zero.addAll reports ∧
      (zero.addAll reports).input.toNat = 18446744073709551615 ∧
      (zero.addAll reports).total.toNat = greatestCount := by
  intro reports reordered
  have same : reordered.Perm reports := .swap _ _ _
  obtain ⟨input, -, total, order, -⟩ := addAll_exact reports
  exact ⟨same, order reordered same, input.trans (by decide), total.trans (by decide)⟩

end TokenUsage

namespace Budgets

variable {b : Budgets} {s : RunState}

/-- **The question before an answer is accepted foretells the usage after it**: some input and
output would not exceed the budget exactly if the total with them is within it. -/
theorem wouldExceedTokens_foretells_add (balanced : s.tokenUsage.Balanced) (input output : UInt64) :
    b.wouldExceedTokens s (addCapped input output) = false ↔
      (s.tokenUsage.add input output).total ≤ b.maxTokens := by
  have asked := wouldExceedTokens_iff (b := b) balanced.counts input output
  have added := (balanced.counts.add input output).total
  rw [← Bool.not_eq_true, asked, Nat.not_lt, UInt64.le_iff_toNat_le, added]
  -- The two sums differ in the order of their parts only.
  rw [Nat.add_assoc, Nat.add_add_add_comm]

/-- With one token below the greatest count spent, an answer that reports as many tokens as can be
counted, both read and written, fits a budget of the greatest count, and one of a single token does
not fit a smaller one. -/
theorem wouldExceedTokens_foretells_add_near_limit :
    let now : Timestamp := ⟨⟨2025, 1, 1⟩, ⟨6, 0, 0, 0⟩, by decide, by decide⟩
    let usage := (TokenUsage.of 18446744073709551610 2).add 1 1
    let s : RunState := { RunState.start "run" "plan" now with tokenUsage := usage }
    let most : UInt64 := 18446744073709551615
    let greatest : Budgets := ⟨⟨1, most, none⟩, by decide, by decide, by decide⟩
    let smaller : Budgets := ⟨⟨1, most - 1, none⟩, by decide, by decide, by decide⟩
    s.tokenUsage.Balanced ∧ usage.total = most - 1 ∧
      greatest.wouldExceedTokens s (addCapped most most) = false ∧
      (usage.add most most).total ≤ greatest.maxTokens ∧
      smaller.wouldExceedTokens s (addCapped 0 1) ≠ false ∧
      ¬(usage.add 0 1).total ≤ smaller.maxTokens := by
  intro now usage s most greatest smaller
  have balanced : s.tokenUsage.Balanced := TokenUsage.balanced_add _ _ _
  have within : (usage.add most most).total ≤ greatest.maxTokens := by decide
  have beyond : ¬(usage.add 0 1).total ≤ smaller.maxTokens := by decide
  exact ⟨balanced, by decide, (wouldExceedTokens_foretells_add balanced most most).mpr within,
    within, mt (wouldExceedTokens_foretells_add balanced 0 1).mp beyond, beyond⟩

end Budgets

end BudgetedRun
