/-!
# Digits in a text

A number in decimal consists of digits, the first of which is no zero unless it is the only one. In
front of a text that does not go on with a digit it is found again as the longest run of digits.
-/

namespace BudgetedRun

namespace Text

/-- A text does not go on with such a character. -/
def Stops (p : Char → Bool) (cs : List Char) : Prop := ∀ c, cs.head? = some c → p c = false

variable {p : Char → Bool} {c : Char} {cs rest : List Char}

theorem stops_nil : Stops p [] := fun _ first => nomatch first

/-- A text that starts with another character does not go on with such a one. -/
theorem stops_cons (stop : p c = false) : Stops p (c :: cs) := by
  rintro _ ⟨⟩
  exact stop

/-- A text that does not go on with some characters does not go on with fewer ones. -/
theorem Stops.of_imp {q : Char → Bool} (stops : Stops q cs) (imp : ∀ c, p c = true → q c = true) :
    Stops p cs := by
  intro c first
  cases found : p c with
  | false => rfl
  | true => exact absurd (imp c found) (Bool.not_eq_true _ ▸ stops c first)

/-- The front of a text does not go on with a character with which the text does not. -/
theorem Stops.take (stops : Stops p cs) (n : Nat) : Stops p (cs.take n) := by
  intro c first
  rw [List.head?_take] at first
  split at first
  · cases first
  · exact stops c first

/-- Nothing is taken from a text that does not go on with such a character. -/
theorem Stops.takeWhile (stops : Stops p rest) : rest.takeWhile p = [] := by
  cases rest with
  | nil => rfl
  | cons c rest => rw [List.takeWhile_cons_of_neg (Bool.not_eq_true _ ▸ stops c rfl)]

/-- Nothing is dropped from a text that does not go on with such a character. -/
theorem Stops.dropWhile (stops : Stops p rest) : rest.dropWhile p = rest := by
  cases rest with
  | nil => rfl
  | cons c rest => rw [List.dropWhile_cons_of_neg (Bool.not_eq_true _ ▸ stops c rfl)]

/-- In front of a stop, such characters are the longest run of them. -/
theorem takeWhile_append (all : ∀ c ∈ cs, p c = true) (stops : Stops p rest) :
    (cs ++ rest).takeWhile p = cs := by
  rw [List.takeWhile_append_of_pos all, stops.takeWhile, List.append_nil]

/-- A run of characters is dropped to its end. -/
theorem dropWhile_append (all : ∀ c ∈ cs, p c = true) (stops : Stops p rest) :
    (cs ++ rest).dropWhile p = rest := by
  rw [List.dropWhile_append_of_pos all, stops.dropWhile]

/-- A number in decimal consists of digits. -/
theorem isDigit_toDigits (n : Nat) : ∀ c ∈ Nat.toDigits 10 n, c.isDigit = true :=
  fun _ member => Nat.isDigit_of_mem_toDigits (by decide) (by decide) member

/-- A number that is not zero does not start with a zero. -/
theorem head?_toDigits_ne_zero {n : Nat} (positive : 0 < n) :
    (Nat.toDigits 10 n).head? ≠ some '0' := by
  induction n using Nat.strongRecOn with
  | ind n ih =>
      by_cases small : n < 10
      · rw [Nat.toDigits_of_lt_base small]
        intro zero
        have zero := Nat.digitChar_eq_zero.mp (Option.some.inj zero)
        omega
      · have further := ih (n / 10) (by omega) (by omega)
        rw [Nat.toDigits_of_base_le (by decide) (Nat.not_lt.mp small), List.head?_append]
        cases first : (Nat.toDigits 10 (n / 10)).head? with
        | none => exact absurd (List.head?_eq_none_iff.mp first) Nat.toDigits_ne_nil
        | some d => rwa [first] at further

/-- The digits of a number do not start with a zero in front of others. -/
theorem first_toDigits {n : Nat} (long : 1 < (Nat.toDigits 10 n).length) :
    (Nat.toDigits 10 n).head? ≠ some '0' := by
  apply head?_toDigits_ne_zero
  rcases Nat.eq_zero_or_pos n with rfl | positive
  · exact absurd long (by decide)
  · exact positive

end Text

end BudgetedRun
