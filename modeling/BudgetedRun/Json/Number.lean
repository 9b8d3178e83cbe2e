import BudgetedRun.Json.Binary64

/-!
# JSON numbers

A number is a whole number of at most 64 bits where its text is one, and a binary64 value
otherwise: with a fraction or an exponent, beyond 64 bits, or `-0`. `Number.read?` reads a text
that must be one number from end to end, `Number.render` writes one.
-/

namespace BudgetedRun

namespace Json

/-- A JSON number. -/
inductive Number where
  /-- A whole number that is not negative. -/
  | natural (n : UInt64)
  /-- The negative whole number `-(below + 1)`. -/
  | negative (below : Fin 0x8000000000000000)
  /-- Any other number. -/
  | float (x : Binary64)
deriving DecidableEq

/-- The parts of a number's text: `whole` before the point, `fraction` after it. -/
structure Numeral where
  isNegative : Bool
  whole : List Char
  fraction : Option (List Char)
  /-- Whether the exponent is negative, and its digits. -/
  exponent : Option (Bool × List Char)

namespace Numeral

/-- Digits, at least one, and what follows them. -/
def digits1? (cs : List Char) : Option (List Char × List Char) :=
  match cs.takeWhile Char.isDigit with
  | [] => none
  | ds => some (ds, cs.dropWhile Char.isDigit)

/-- An exponent that takes up the whole text, or no exponent. -/
def exponent? : List Char → Option (Option (Bool × List Char))
  | [] => some none
  | e :: rest =>
    if e = 'e' ∨ e = 'E' then
      let (isNegative, rest) := match rest with
        | '+' :: rest => (false, rest)
        | '-' :: rest => (true, rest)
        | _ => (false, rest)
      match digits1? rest with
      | some (ds, []) => some (some (isNegative, ds))
      | _ => none
    else none

/-- What follows the digits before the point. -/
def tail? (isNegative : Bool) (whole : List Char) : List Char → Option Numeral
  | '.' :: rest => do
    let (ds, rest) ← digits1? rest
    let e ← exponent? rest
    some ⟨isNegative, whole, some ds, e⟩
  | rest => do
    let e ← exponent? rest
    some ⟨isNegative, whole, none, e⟩

/-- A text of one number: no zero in front of other digits, and digits on both sides of a point. -/
def read? (cs : List Char) : Option Numeral :=
  let (isNegative, cs) := match cs with
    | '-' :: rest => (true, rest)
    | _ => (false, cs)
  match digits1? cs with
  | none => none
  | some (whole, rest) =>
    if whole.length > 1 && whole.head? == some '0' then none else tail? isNegative whole rest

def value (ds : List Char) : Nat := Nat.ofDigitChars 10 ds 0

/-- Read digits onto a 64-bit number while it holds them; the number, and the digits that are left
over. -/
def accumulate (n : Nat) : List Char → Nat × List Char
  | [] => (n, [])
  | d :: ds =>
    let next := 10 * n + (d.toNat - '0'.toNat)
    if next < UInt64.size then accumulate next ds else (n, d :: ds)

/-- Ten to a power, rounded. -/
def tenTo (k : Nat) : Float := Float.ofScientific 1 false k

/-- `x * 10 ^ e` in steps of at most `10 ^ 308`, or nothing above the range. The first number
bounds the steps. -/
def scale : Nat → Float → Int → Option Float
  | 0, x, _ => some x
  | steps + 1, x, e =>
    if e.natAbs ≤ 308 then
      if e < 0 then some (x / tenTo e.natAbs)
      else
        let y := x * tenTo e.natAbs
        if y.isInf then none else some y
    else if x == 0 then some x
    else if e < 0 then scale steps (x / tenTo 308) (e + 308)
    else none

/-- The binary64 value of a text: the digits that 64 bits hold, scaled by a power of ten. Further
digits before the point count by their place only and further ones after it not at all. -/
def toFloat? (n : Numeral) : Option Float := do
  let (high, dropped) := accumulate 0 n.whole
  let fraction := n.fraction.getD []
  let (significand, ignored) := accumulate high fraction
  let place : Int := dropped.length - (fraction.length - ignored.length : Nat)
  let zero : Float := 0
  let x ← match n.exponent with
    | none => scale (place.natAbs + 1) significand.toUInt64.toFloat place
    | some (isNegative, ds) =>
      let e := value ds
      if e ≥ 0x80000000 then
        if significand ≠ 0 && !isNegative then none else some zero
      else
        let e := if isNegative then place - e else place + e
        scale (e.natAbs + 1) significand.toUInt64.toFloat e
  some (if n.isNegative then -x else x)

end Numeral

namespace Number

/-- The number that a numeral stands for, unless it is beyond the range of binary64. -/
def ofNumeral? (n : Numeral) : Option Number :=
  let asFloat := n.toFloat?.bind fun x => (Binary64.ofFloat? x).map float
  match n.fraction, n.exponent with
  | none, none =>
    let v := Numeral.value n.whole
    if n.isNegative then
      if h : 0 < v ∧ v ≤ 0x8000000000000000 then some (.negative ⟨v - 1, by omega⟩) else asFloat
    else if h : v < UInt64.size then some (.natural (UInt64.ofNatLT v h)) else asFloat
  | _, _ => asFloat

/-- Read a text that is one number from end to end. The inner `none` stands for a number beyond the
range of binary64. -/
def read? (cs : List Char) : Option (Option Number) :=
  (Numeral.read? cs).map ofNumeral?

def render : Number → List Char
  | .natural n => Nat.toDigits 10 n.toNat
  | .negative below => '-' :: Nat.toDigits 10 (below.val + 1)
  | .float x => x.render.toList

end Number

end Json

end BudgetedRun
