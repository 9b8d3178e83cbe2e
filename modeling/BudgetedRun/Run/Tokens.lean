/-!
# Counting tokens

Token counts are 64-bit numbers, and a sum that would not fit stays at the greatest of them.
-/

namespace BudgetedRun

/-- The sum of two counts, or the greatest count if the sum is beyond it. -/
def addCapped (a b : UInt64) : UInt64 :=
  UInt64.ofNatLT (min (a.toNat + b.toNat) 0xFFFFFFFFFFFFFFFF) (by simp only [UInt64.size]; omega)

/-- A capped sum is the sum, cut off at the greatest count. -/
@[simp] theorem toNat_addCapped (a b : UInt64) :
    (addCapped a b).toNat = min (a.toNat + b.toNat) 0xFFFFFFFFFFFFFFFF := by
  simp [addCapped]

/-- The tokens of a run: read by the provider, written by it, and both together. -/
structure TokenUsage where
  input : UInt64
  output : UInt64
  total : UInt64
deriving DecidableEq

namespace TokenUsage

def of (input output : UInt64) : TokenUsage := ⟨input, output, addCapped input output⟩

def zero : TokenUsage := ⟨0, 0, 0⟩

/-- The usage after some more input and output. -/
def add (u : TokenUsage) (input output : UInt64) : TokenUsage :=
  of (addCapped u.input input) (addCapped u.output output)

end TokenUsage

end BudgetedRun
