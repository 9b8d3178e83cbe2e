import BudgetedRun.Proofs.Text.Digits
import BudgetedRun.Time.Text

/-!
# Reading times back

Every point in time is read back from what it is written as (`Timestamp.parse?_render`), whatever
the year, with a second 60, and with as many digits of fraction as it needs.
-/

namespace BudgetedRun

/-- No month has more than thirty-one days. -/
theorem Date.daysIn_le (year : Int) (month : Nat) : daysIn year month ≤ 31 := by
  unfold daysIn
  split
  · split <;> decide
  · split <;> decide

namespace Timestamp

open Text

variable {cs rest : List Char} {n width : Nat}

/-- A number with zeros in front consists of digits. -/
theorem isDigit_padded (width n : Nat) : ∀ c ∈ padded width n, c.isDigit = true := by
  intro c member
  rcases List.mem_append.mp member with zero | digit
  · rw [List.eq_of_mem_replicate zero]
    rfl
  · exact isDigit_toDigits n c digit

/-- A number with zeros in front has a digit. -/
theorem padded_ne_nil (width n : Nat) : padded width n ≠ [] :=
  List.append_ne_nil_of_right_ne_nil _ Nat.toDigits_ne_nil

/-- The digits of a number with zeros in front have its value. -/
theorem ofDigitChars_padded (width n : Nat) : Nat.ofDigitChars 10 (padded width n) 0 = n := by
  rw [padded, Nat.ofDigitChars_append, Nat.ofDigitChars_replicate_zero, Nat.mul_zero,
    Nat.ofDigitChars_ten_toDigits]

/-- A number that fits is padded to just the width. -/
theorem length_padded (positive : 0 < width) (below : n < Nat.pow 10 width) :
    (padded width n).length = width := by
  have short := (Nat.length_toDigits_le_iff (by decide) positive).mpr below
  rw [padded, List.length_append, List.length_replicate]
  omega

/-- A digit is no blank. -/
theorem isBlank_of_isDigit {c : Char} (digit : c.isDigit = true) : isBlank c = false := by
  rw [Char.isDigit, Bool.and_eq_true, decide_eq_true_eq, decide_eq_true_eq] at digit
  have low : 48 ≤ c.toNat := digit.1
  have high : c.toNat ≤ 57 := digit.2
  simp [isBlank]
  omega

/-- What starts with digits starts with a digit. -/
theorem digit_of_append {c : Char} (digits : ∀ c ∈ cs, c.isDigit = true) (nonempty : cs ≠ [])
    {rest' : List Char} (same : cs ++ rest = c :: rest') : c.isDigit = true := by
  cases cs with
  | nil => exact absurd rfl nonempty
  | cons d cs =>
      obtain ⟨rfl, -⟩ := List.cons.inj same
      exact digits d List.mem_cons_self

namespace Read

/-- Nothing is skipped in front of a character that is no blank. -/
theorem skipBlanks_cons {c : Char} (kept : isBlank c = false) :
    skipBlanks (c :: cs) = c :: cs :=
  List.dropWhile_cons_of_neg (Bool.not_eq_true _ ▸ kept)

/-- Nothing is skipped in front of digits. -/
theorem skipBlanks_digits (digits : ∀ c ∈ cs, c.isDigit = true) (nonempty : cs ≠ []) :
    skipBlanks (cs ++ rest) = cs ++ rest := by
  cases cs with
  | nil => exact absurd rfl nonempty
  | cons c cs => exact skipBlanks_cons (isBlank_of_isDigit (digits c List.mem_cons_self))

/-- Digits, no more than fit, are read as the number they are. -/
theorem number?_append {most : Nat} (digits : ∀ c ∈ cs, c.isDigit = true) (nonempty : cs ≠ [])
    (short : cs.length ≤ most) (stops : Stops Char.isDigit rest) :
    number? most (cs ++ rest) = some (Nat.ofDigitChars 10 cs 0, rest) := by
  have front : ((cs ++ rest).take most).takeWhile Char.isDigit = cs := by
    rw [List.take_append, List.take_of_length_le short]
    exact takeWhile_append digits (stops.take _)
  rw [number?, front]
  cases cs with
  | nil => exact absurd rfl nonempty
  | cons c cs => simp only [List.drop_left]

/-- A number below a hundred is read back from its two digits. -/
theorem field?_padded (below : n < 100) (stops : Stops Char.isDigit rest) :
    field? (padded 2 n ++ rest) = some (n, rest) := by
  have digits := isDigit_padded 2 n
  have length : (padded 2 n).length = 2 := length_padded (by decide) below
  rw [field?, skipBlanks_digits digits (padded_ne_nil 2 n),
    number?_append digits (padded_ne_nil 2 n) (Nat.le_of_eq length) stops, ofDigitChars_padded]

/-- A mark is read where it stands. -/
theorem mark?_cons {c : Char} (kept : isBlank c = false) : mark? c (c :: rest) = some rest := by
  rw [mark?, skipBlanks_cons kept]
  exact if_pos rfl

/-- A year is read back, also one with a sign. -/
theorem year?_yearChars (year : Int) (stops : Stops Char.isDigit rest) :
    year? (yearChars year ++ rest) = some (year, rest) := by
  have digits (n : Nat) := isDigit_padded 4 n
  have nonempty (n : Nat) := padded_ne_nil 4 n
  rw [yearChars]
  split
  · rename_i common
    have short : (padded 4 year.toNat).length ≤ 4 :=
      Nat.le_of_eq (length_padded (by decide) (by change _ < 10000; omega))
    have same : (year.toNat : Int) = year := Int.toNat_of_nonneg common.1
    have number := number?_append (digits year.toNat) (nonempty _) short stops
    rw [ofDigitChars_padded] at number
    rw [year?, skipBlanks_digits (digits _) (nonempty _)]
    split
    · rename_i rest' sign
      exact absurd (digit_of_append (digits _) (nonempty _) sign) (by decide)
    · rename_i rest' sign
      exact absurd (digit_of_append (digits _) (nonempty _) sign) (by decide)
    · rw [number, Option.map_some]
      exact congrArg (fun year => some (year, rest)) same
  · rename_i rare
    have number := number?_append (digits year.natAbs) (nonempty _)
      (Nat.le_trans (Nat.le_add_right _ rest.length) (Nat.le_of_eq List.length_append.symm)) stops
    rw [ofDigitChars_padded] at number
    by_cases negative : year < 0
    · have same : -(year.natAbs : Int) = year := by omega
      rw [if_pos negative, List.cons_append, year?, skipBlanks_cons rfl]
      simp only
      rw [number, Option.map_some]
      exact congrArg (fun year => some (year, rest)) same
    · have same : (year.natAbs : Int) = year := by omega
      rw [if_neg negative, List.cons_append, year?, skipBlanks_cons rfl]
      simp only
      rw [number, Option.map_some]
      exact congrArg (fun year => some (year, rest)) same

/-- Digits after a point are read as nanoseconds. -/
theorem fraction?_digits (digits : ∀ c ∈ cs, c.isDigit = true) (nonempty : cs ≠ [])
    (short : cs.length ≤ 9) (stops : Stops Char.isDigit rest) :
    fraction? ('.' :: (cs ++ rest)) =
      some (Nat.ofDigitChars 10 cs 0 * Nat.pow 10 (9 - cs.length), rest) := by
  rw [fraction?, takeWhile_append digits stops, dropWhile_append digits stops]
  cases cs with
  | nil => exact absurd rfl nonempty
  | cons c cs => simp only [List.take_of_length_le short]

/-- A fraction of a second is read back from its digits as nanoseconds. -/
theorem fraction?_padded (positive : 0 < width) (short : width ≤ 9) (below : n < Nat.pow 10 width)
    (stops : Stops Char.isDigit rest) :
    fraction? ('.' :: (padded width n ++ rest)) = some (n * Nat.pow 10 (9 - width), rest) := by
  have length := length_padded positive below
  rw [fraction?_digits (isDigit_padded width n) (padded_ne_nil width n) (length.symm ▸ short) stops,
    ofDigitChars_padded, length]

/-- A fraction, or what follows if there is none, does not go on with a digit. -/
theorem stops_fractionChars (nano : Nat) (stops : Stops Char.isDigit rest) :
    Stops Char.isDigit (fractionChars nano ++ rest) := by
  unfold fractionChars
  split
  · exact stops
  split
  · exact stops_cons rfl
  split
  · exact stops_cons rfl
  · exact stops_cons rfl

/-- The digits of a fraction that are not written are zeros. -/
theorem fraction?_fractionChars {nano : Nat} (below : nano < 1000000000)
    (stops : Stops Char.isDigit rest) (point : rest.head? ≠ some '.') :
    fraction? (fractionChars nano ++ rest) = some (nano, rest) := by
  rw [fractionChars]
  split
  · rename_i zero
    rw [zero, List.nil_append, fraction?]
    rintro rest' rfl
    exact point rfl
  split
  · rename_i milli
    have whole : nano / 1000000 * 1000000 = nano := by omega
    rw [List.cons_append,
      fraction?_padded (by decide) (by decide) (by change _ < 1000; omega) stops]
    exact congrArg (fun n => some (n, rest)) whole
  split
  · rename_i micro
    have whole : nano / 1000 * 1000 = nano := by omega
    rw [List.cons_append,
      fraction?_padded (by decide) (by decide) (by change _ < 1000000; omega) stops]
    exact congrArg (fun n => some (n, rest)) whole
  · rw [List.cons_append, fraction?_padded (by decide) (by decide) below stops]
    exact congrArg (fun n => some (n, rest)) (Nat.mul_one nano)

end Read

/-- A local time that is not ahead of UTC is the time in UTC. -/
theorem ofLocal?_zero (t : Timestamp) : ofLocal? t.date t.time 0 = some t := by
  obtain ⟨hours, minutes, -, -⟩ := t.time_valid
  have inside : t.time.hour * 60 + t.time.minute < 1440 := by omega
  have minuteOfDay : (((t.time.hour * 60 + t.time.minute : Nat) : Int) - 0) % 1440 =
      (t.time.hour * 60 + t.time.minute : Nat) := by omega
  have hour : (t.time.hour * 60 + t.time.minute) / 60 = t.time.hour := by omega
  have minute : (t.time.hour * 60 + t.time.minute) % 60 = t.time.minute := by omega
  rw [ofLocal?, if_pos ⟨t.date_valid, t.time_valid⟩]
  simp only [minuteOfDay, Int.toNat_natCast, hour, minute]
  rw [if_neg (by omega), if_pos (by omega), of?, dif_pos ⟨t.date_valid, t.time_valid⟩]

open Read in
/-- A point in time is read back from its characters. -/
theorem ofChars?_chars (t : Timestamp) : ofChars? t.chars = some t := by
  obtain ⟨-, -, -, months, -, days⟩ := t.date_valid
  obtain ⟨hours, minutes, seconds, nanos⟩ := t.time_valid
  have days := Nat.le_trans days (Date.daysIn_le _ _)
  have month : t.date.month < 100 := by omega
  have day : t.date.day < 100 := by omega
  have hour : t.time.hour < 100 := by omega
  have minute : t.time.minute < 100 := by omega
  have second : t.time.second < 100 := by omega
  simp only [chars, List.append_assoc, List.cons_append, ofChars?]
  rw [year?_yearChars t.date.year (stops_cons rfl)]
  simp only [Option.bind_eq_bind, Option.bind_some]
  rw [mark?_cons rfl]
  simp only [Option.bind_some]
  rw [field?_padded month (stops_cons rfl)]
  simp only [Option.bind_some]
  rw [mark?_cons rfl]
  simp only [Option.bind_some]
  rw [field?_padded day (stops_cons rfl)]
  simp only [separator?, true_or, ↓reduceIte, Option.bind_some]
  rw [field?_padded hour (stops_cons rfl)]
  simp only [Option.bind_some]
  rw [mark?_cons rfl]
  simp only [Option.bind_some]
  rw [field?_padded minute (stops_cons rfl)]
  simp only [Option.bind_some]
  rw [mark?_cons rfl]
  simp only [Option.bind_some]
  rw [field?_padded second (stops_fractionChars _ (stops_cons rfl))]
  simp only [Option.bind_some]
  rw [fraction?_fractionChars nanos (stops_cons rfl) (by decide)]
  have zone : zone? (skipBlanks ['Z']) = some (0, []) := by decide
  simp only [Option.bind_some, zone]
  exact (if_pos (by decide)).trans t.ofLocal?_zero

/-- A point in time is read back from its text. -/
theorem parse?_render (t : Timestamp) : parse? t.render = some t := by
  rw [parse?, render, String.toList_ofList, ofChars?_chars]

end Timestamp

end BudgetedRun
