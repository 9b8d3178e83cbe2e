/-!
# Points in time

A point in time is a date of the Gregorian calendar and a time of day in UTC, down to the
nanosecond. A second 60 is kept as it is, at any minute. Dates lie between the years -262143 and
262142.
-/

namespace BudgetedRun

/-- A day of the Gregorian calendar. -/
structure Date where
  year : Int
  month : Nat
  day : Nat
deriving DecidableEq, Repr

namespace Date

/-- Whether the year has a 29th of February. -/
def isLeap (year : Int) : Bool := year % 4 == 0 && (year % 100 != 0 || year % 400 == 0)

/-- The number of days of a month. -/
def daysIn (year : Int) (month : Nat) : Nat :=
  if month = 2 then (if isLeap year then 29 else 28)
  else if month = 4 ∨ month = 6 ∨ month = 9 ∨ month = 11 then 30
  else 31

/-- A day that the calendar has, within the years that are kept. -/
def Valid (d : Date) : Prop :=
  -262143 ≤ d.year ∧ d.year ≤ 262142 ∧ 1 ≤ d.month ∧ d.month ≤ 12 ∧ 1 ≤ d.day ∧
    d.day ≤ daysIn d.year d.month

instance (d : Date) : Decidable d.Valid := inferInstanceAs (Decidable (_ ∧ _))

def next (d : Date) : Date :=
  if d.day < daysIn d.year d.month then { d with day := d.day + 1 }
  else if d.month < 12 then ⟨d.year, d.month + 1, 1⟩
  else ⟨d.year + 1, 1, 1⟩

def previous (d : Date) : Date :=
  if 1 < d.day then { d with day := d.day - 1 }
  else if 1 < d.month then ⟨d.year, d.month - 1, daysIn d.year (d.month - 1)⟩
  else ⟨d.year - 1, 12, 31⟩

end Date

/-- A time of day. -/
structure TimeOfDay where
  hour : Nat
  minute : Nat
  second : Nat
  nano : Nat
deriving DecidableEq, Repr

namespace TimeOfDay

/-- A time that a clock shows, second 60 included. -/
def Valid (t : TimeOfDay) : Prop :=
  t.hour < 24 ∧ t.minute < 60 ∧ t.second ≤ 60 ∧ t.nano < 1000000000

instance (t : TimeOfDay) : Decidable t.Valid := inferInstanceAs (Decidable (_ ∧ _))

end TimeOfDay

/-- A point in time, in UTC. -/
structure Timestamp where
  date : Date
  time : TimeOfDay
  date_valid : date.Valid
  time_valid : time.Valid
deriving DecidableEq

namespace Timestamp

/-- The point in time with some date and time, if there is one. -/
def of? (date : Date) (time : TimeOfDay) : Option Timestamp :=
  if h : date.Valid ∧ time.Valid then some ⟨date, time, h.1, h.2⟩ else none

/-- A number that grows with time: the fields from the year down to the nanosecond as the digits of
one number. -/
def rank (t : Timestamp) : Int :=
  (((((t.date.year * 13 + t.date.month) * 32 + t.date.day) * 24 + t.time.hour) * 60 +
    t.time.minute) * 61 + t.time.second) * 1000000000 + t.time.nano

/-- Earlier or at the same time. -/
instance : LE Timestamp := ⟨fun a b => a.rank ≤ b.rank⟩

/-- Earlier. -/
instance : LT Timestamp := ⟨fun a b => a.rank < b.rank⟩

instance (a b : Timestamp) : Decidable (a ≤ b) := inferInstanceAs (Decidable (a.rank ≤ b.rank))

instance (a b : Timestamp) : Decidable (a < b) := inferInstanceAs (Decidable (a.rank < b.rank))

theorem le_refl (a : Timestamp) : a ≤ a := Int.le_refl a.rank

/-- Of two times that are not in order the second one is not later. -/
theorem not_lt {a b : Timestamp} : ¬a < b ↔ b ≤ a := Int.not_lt

/-- The time in UTC of a local date and time, which is ahead of UTC by some minutes, less than a
day. -/
def ofLocal? (date : Date) (time : TimeOfDay) (ahead : Int) : Option Timestamp :=
  if date.Valid ∧ time.Valid then
    let minutes := (time.hour * 60 + time.minute : Nat) - ahead
    let date :=
      if minutes < 0 then date.previous else if minutes < 1440 then date else date.next
    let minuteOfDay := (minutes % 1440).toNat
    of? date { time with hour := minuteOfDay / 60, minute := minuteOfDay % 60 }
  else none

end Timestamp

end BudgetedRun
