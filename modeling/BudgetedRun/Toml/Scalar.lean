import BudgetedRun.Time.Timestamp
import BudgetedRun.Toml.Value

/-!
# Bare values in TOML

Values that are not in quotes or brackets: truth values, whole numbers in four bases, numbers with a
fraction or an exponent, and points in time, with or without a date, a time of day and an offset.
The spelling of a number is checked when it is read and its value when it is needed, so a number
that is too large is `Value.unusable`, and so is one whose spelling passes for a whole number's
without being one.
-/

namespace BudgetedRun

namespace Toml

namespace Scalar

/-- Digits without the single underscores that may stand between two of them. The flag tells that a
digit must come next. -/
def digits? (isDigit : Char → Bool) : (fresh : Bool) → List Char → Option (List Char)
  | fresh, [] => if fresh then none else some []
  | fresh, c :: rest =>
    if isDigit c then (digits? isDigit false rest).map (c :: ·)
    else if c = '_' ∧ fresh = false then digits? isDigit true rest
    else none

/-- A decimal number without a sign and without zeros in front. -/
def decimal? (cs : List Char) : Option Nat :=
  match digits? Char.isDigit true cs with
  | some ds =>
    if ds.length > 1 && ds.head? == some '0' then none else some (Nat.ofDigitChars 10 ds 0)
  | none => none

/-- A hexadecimal digit of either case. -/
def isHexDigit (c : Char) : Bool :=
  c.isDigit || ('a' ≤ c && c ≤ 'f') || ('A' ≤ c && c ≤ 'F')

def digitValue (c : Char) : Nat :=
  if c.isDigit then c.toNat - '0'.toNat
  else if c.isLower then c.toNat - 'a'.toNat + 10
  else c.toNat - 'A'.toNat + 10

/-- A number in some base. -/
def inBase? (base : Nat) (cs : List Char) : Option Nat :=
  let isDigit (c : Char) : Bool := isHexDigit c && digitValue c < base
  (digits? isDigit true cs).map fun ds => ds.foldl (fun n c => base * n + digitValue c) 0

/-- A text without its sign, and the sign. -/
def unsigned : List Char → Bool × List Char
  | '-' :: rest => (true, rest)
  | '+' :: rest => (false, rest)
  | cs => (false, cs)

/-- A whole number. -/
def integer? : List Char → Option Int
  | '0' :: 'x' :: rest => (inBase? 16 rest).map Int.ofNat
  | '0' :: 'o' :: rest => (inBase? 8 rest).map Int.ofNat
  | '0' :: 'b' :: rest => (inBase? 2 rest).map Int.ofNat
  | cs =>
    let (isNegative, ds) := unsigned cs
    (decimal? ds).map fun n => if isNegative then -n else n

/-- An exponent after its letter. -/
def isExponent (cs : List Char) : Bool := (digits? Char.isDigit true (unsigned cs).2).isSome

/-- An `e` of either case. -/
def isExponentMark (c : Char) : Bool := c == 'e' || c == 'E'

/-- A number with a fraction or an exponent, or one of the special numbers. -/
def isFloat (cs : List Char) : Bool :=
  let cs := (unsigned cs).2
  let whole := cs.takeWhile fun c => c.isDigit || c == '_'
  let rest := cs.dropWhile fun c => c.isDigit || c == '_'
  cs == ['i', 'n', 'f'] || cs == ['n', 'a', 'n'] ||
    ((decimal? whole).isSome &&
      match rest with
      | '.' :: rest =>
        let fraction := rest.takeWhile fun c => !isExponentMark c
        (digits? Char.isDigit true fraction).isSome &&
          (match rest.dropWhile fun c => !isExponentMark c with
            | [] => true
            | _ :: e => isExponent e)
      | c :: e => isExponentMark c && isExponent e
      | [] => false)

/-- The digits of a text, as one number. -/
def digitsOf (cs : List Char) : Nat := Nat.ofDigitChars 10 (cs.filter Char.isDigit) 0

/-- `n * 10 ^ e` rounds to a finite binary64 value: it is less than halfway from the greatest one to
the next power of two. Numbers whose count of digits decides are not written out. -/
def isInRange (n : Nat) (e : Int) : Bool :=
  let limit := 1 <<< 1024 - 1 <<< 970
  let top := (Nat.toDigits 10 n).length + e
  n == 0 || top < 300 || (top ≤ 310 && n * Nat.pow 10 e.toNat < limit * Nat.pow 10 (-e).toNat)

/-- A number with a fraction or an exponent, or a special one, that binary64 holds. -/
def fitsFloat (cs : List Char) : Bool :=
  let mantissa := cs.takeWhile fun c => !isExponentMark c
  let exponent := (cs.dropWhile fun c => !isExponentMark c).drop 1
  let size := digitsOf exponent
  let places := ((mantissa.dropWhile (· ≠ '.')).filter Char.isDigit).length
  let e : Int := if exponent.head? == some '-' then -size else size
  isInRange (digitsOf mantissa) (e - places)

/-- A number of so many digits, and what follows it. -/
def fixed? (count : Nat) (cs : List Char) : Option (Nat × List Char) :=
  let ds := cs.take count
  if ds.length = count ∧ ds.all Char.isDigit then some (Nat.ofDigitChars 10 ds 0, cs.drop count)
  else none

/-- A mark, and what follows it. -/
def mark? (c : Char) : List Char → Option (List Char)
  | d :: rest => if d = c then some rest else none
  | [] => none

/-- A day of the calendar, and what follows it. -/
def date? (cs : List Char) : Option (List Char) := do
  let (year, cs) ← fixed? 4 cs
  let cs ← mark? '-' cs
  let (month, cs) ← fixed? 2 cs
  let cs ← mark? '-' cs
  let (day, cs) ← fixed? 2 cs
  if (Date.mk year month day).Valid then some cs else none

/-- The seconds of a time of day, with a fraction or without, or nothing. -/
def seconds? (cs : List Char) : Option (List Char) :=
  match cs with
  | ':' :: cs => do
    let (second, cs) ← fixed? 2 cs
    if second ≤ 60 then
      match cs with
      | '.' :: cs =>
        if cs.takeWhile Char.isDigit = [] then none else some (cs.dropWhile Char.isDigit)
      | cs => some cs
    else none
  | cs => some cs

/-- A time of day, and what follows it. -/
def clock? (cs : List Char) : Option (List Char) := do
  let (hour, cs) ← fixed? 2 cs
  let cs ← mark? ':' cs
  let (minute, cs) ← fixed? 2 cs
  if hour < 24 ∧ minute < 60 then seconds? cs else none

/-- An offset from UTC that takes up the whole text, or none. -/
def isOffset (cs : List Char) : Bool :=
  match cs with
  | [] => true
  | [c] => c == 'Z' || c == 'z'
  | c :: cs =>
    (c == '+' || c == '-') &&
      (match fixed? 2 cs with
        | some (hour, ':' :: cs) =>
          (match fixed? 2 cs with
            | some (minute, []) => hour < 24 && minute < 60
            | _ => false)
        | _ => false)

/-- A point in time: a date, a time of day, or both, then perhaps with an offset. -/
def isTime (cs : List Char) : Bool :=
  match date? cs with
  | some [] => true
  | some (c :: rest) =>
    (c == 'T' || c == 't' || c == ' ') &&
      (match clock? rest with
        | some rest => isOffset rest
        | none => false)
  | none => clock? cs == some []

/-- A whole number that 128 bits hold, with a sign or without. -/
def fits (n : Int) : Bool :=
  -0x80000000000000000000000000000000 ≤ n && n < 0x100000000000000000000000000000000

/-- The mark of a base with no digits after it. -/
def isEmptyBase (cs : List Char) : Bool :=
  cs == ['0', 'x'] || cs == ['0', 'o'] || cs == ['0', 'b']

/-- Each underscore stands between two hexadecimal digits. The character is the one just before. -/
def areMarksInside : (before : Char) → List Char → Bool
  | before, [] => before != '_'
  | before, c :: rest =>
    (if before = '_' then isHexDigit c else c != '_' || isHexDigit before) && areMarksInside c rest

/-- The spelling of a whole number in groups: digits without a zero in front, up to a first
underscore, and whatever follows, if underscores stand where they may and nothing makes it a number
with a fraction or an exponent. What follows need not be digits, and then the number has no
value. -/
def isGrouped (cs : List Char) : Bool :=
  let cs := (unsigned cs).2
  match cs.takeWhile Char.isDigit, cs.dropWhile Char.isDigit with
  | first :: _, '_' :: rest =>
    first != '0' && areMarksInside '_' rest &&
      !rest.any fun c => c == '.' || c == ' ' || isExponentMark c
  | _, _ => false

/-- A bare value. -/
def read? (cs : List Char) : Option Value :=
  if cs = ['t', 'r', 'u', 'e'] then some (.boolean true)
  else if cs = ['f', 'a', 'l', 's', 'e'] then some (.boolean false)
  else
    match integer? cs with
    | some n => some (if fits n then .integer n else .unusable)
    | none =>
      if isFloat cs then some (if fitsFloat cs then .float else .unusable)
      else if isTime cs then some .time
      else if isEmptyBase cs || isGrouped cs then some .unusable
      else none

/-- The characters at which a bare value ends. -/
def isEnd (c : Char) : Bool :=
  c == ' ' || c == '\t' || c == '\n' || c == '\r' || c == ',' || c == '=' || c == '[' || c == ']' ||
    c == '\x7b' || c == '\x7d' || c == '#'

/-- The bare value at the front of a text, and what follows it. Date and time of day may have a
space between them. -/
def split (cs : List Char) : List Char × List Char :=
  let word := cs.takeWhile fun c => !isEnd c
  let rest := cs.dropWhile fun c => !isEnd c
  match date? word, rest with
  | some [], ' ' :: c :: more =>
    if c.isDigit then
      (word ++ ' ' :: c :: more.takeWhile fun c => !isEnd c, more.dropWhile fun c => !isEnd c)
    else (word, rest)
  | _, _ => (word, rest)

end Scalar

end Toml

end BudgetedRun
