import BudgetedRun.Text.Blank
import BudgetedRun.Time.Timestamp

/-!
# Points in time as text

Times are written as in `2024-05-01T12:00:00.250Z`: in UTC, with the fewest of no, three, six or
nine digits of fraction that keep the value, and with a signed year outside of 0 to 9999. They are
read from a wider set of texts: any offset from UTC, one digit where two are written, blanks between
the parts, and digits beyond the nanosecond, which are cut.
-/

namespace BudgetedRun

namespace Timestamp

/-- A number in decimal with zeros in front up to a width. -/
def padded (width n : Nat) : List Char :=
  let digits := Nat.toDigits 10 n
  List.replicate (width - digits.length) '0' ++ digits

/-- A year, with a sign unless it has one to four digits. -/
def yearChars (year : Int) : List Char :=
  if 0 ≤ year ∧ year ≤ 9999 then padded 4 year.toNat
  else (if year < 0 then '-' else '+') :: padded 4 year.natAbs

/-- The fraction of a second, by as many groups of three digits as it needs. -/
def fractionChars (nano : Nat) : List Char :=
  if nano = 0 then []
  else if nano % 1000000 = 0 then '.' :: padded 3 (nano / 1000000)
  else if nano % 1000 = 0 then '.' :: padded 6 (nano / 1000)
  else '.' :: padded 9 nano

def chars (t : Timestamp) : List Char :=
  yearChars t.date.year ++ '-' :: padded 2 t.date.month ++ '-' :: padded 2 t.date.day ++
    'T' :: padded 2 t.time.hour ++ ':' :: padded 2 t.time.minute ++ ':' :: padded 2 t.time.second ++
    fractionChars t.time.nano ++ ['Z']

def render (t : Timestamp) : String := String.ofList t.chars

namespace Read

/-- What follows the blanks in front. -/
def skipBlanks (cs : List Char) : List Char := cs.dropWhile Text.isBlank

/-- A number of one up to `most` digits, and what follows it. -/
def number? (most : Nat) (cs : List Char) : Option (Nat × List Char) :=
  match (cs.take most).takeWhile Char.isDigit with
  | [] => none
  | ds => some (Nat.ofDigitChars 10 ds 0, cs.drop ds.length)

/-- A number of one or two digits after blanks. -/
def field? (cs : List Char) : Option (Nat × List Char) := number? 2 (skipBlanks cs)

/-- A year after blanks: up to four digits, or a sign and any number of digits. -/
def year? (cs : List Char) : Option (Int × List Char) :=
  match skipBlanks cs with
  | '-' :: rest => (number? rest.length rest).map fun (n, rest) => (-n, rest)
  | '+' :: rest => (number? rest.length rest).map fun (n, rest) => (n, rest)
  | cs => (number? 4 cs).map fun (n, rest) => (n, rest)

/-- A mark after blanks, and what follows it. -/
def mark? (c : Char) (cs : List Char) : Option (List Char) :=
  match skipBlanks cs with
  | d :: rest => if d = c then some rest else none
  | [] => none

/-- The nanoseconds of a fraction, if there is one. -/
def fraction? : List Char → Option (Nat × List Char)
  | '.' :: rest =>
    match rest.takeWhile Char.isDigit with
    | [] => none
    | ds =>
      let kept := ds.take 9
      some (Nat.ofDigitChars 10 kept 0 * Nat.pow 10 (9 - kept.length), rest.dropWhile Char.isDigit)
  | cs => some (0, cs)

/-- The characters that may stand between the hours and the minutes of an offset. -/
def isOffsetMark (c : Char) : Bool := c == ':' || Text.isBlank c

/-- The minutes of an offset from UTC after its sign: two digits of hours and two of minutes. -/
def offset? : List Char → Option (Nat × List Char)
  | h :: k :: rest => do
    match rest.dropWhile isOffsetMark with
    | m :: n :: rest =>
      if h.isDigit && k.isDigit && m.isDigit && n.isDigit && m.toNat ≤ '5'.toNat then
        some (Nat.ofDigitChars 10 [h, k] 0 * 60 + Nat.ofDigitChars 10 [m, n] 0, rest)
      else none
    | _ => none
  | _ => none

/-- How many minutes local time is ahead of UTC. -/
def zone? : List Char → Option (Int × List Char)
  | [] => none
  | c :: rest =>
    if (c :: rest.take 2).map Char.toUpper = ['U', 'T', 'C'] then some (0, rest.drop 2)
    else if c = 'Z' ∨ c = 'z' then some (0, rest)
    else if c = '+' then (offset? rest).map fun (n, rest) => (n, rest)
    else if c = '-' ∨ c = '\u2212' then (offset? rest).map fun (n, rest) => (-n, rest)
    else none

/-- The letter or space between date and time. -/
def separator? : List Char → Option (List Char)
  | c :: rest => if c = 'T' ∨ c = 't' ∨ c = ' ' then some rest else none
  | [] => none

end Read

open Read in
def ofChars? (cs : List Char) : Option Timestamp := do
  let (year, cs) ← year? cs
  let cs ← mark? '-' cs
  let (month, cs) ← field? cs
  let cs ← mark? '-' cs
  let (day, cs) ← field? cs
  let cs ← separator? cs
  let (hour, cs) ← field? cs
  let cs ← mark? ':' cs
  let (minute, cs) ← field? cs
  let cs ← mark? ':' cs
  let (second, cs) ← field? cs
  let (nano, cs) ← fraction? cs
  let (ahead, cs) ← zone? (skipBlanks cs)
  if skipBlanks cs = [] ∧ ahead.natAbs < 1440 then
    ofLocal? ⟨year, month, day⟩ ⟨hour, minute, second, nano⟩ ahead
  else none

def parse? (text : String) : Option Timestamp := ofChars? text.toList

end Timestamp

end BudgetedRun
