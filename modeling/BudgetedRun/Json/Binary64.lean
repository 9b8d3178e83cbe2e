/-!
# Finite binary64 values

A finite binary64 value is kept by its bits, so that equality of values is equality of data and the
two zeros differ. Its text has the fewest decimal digits that single it out among all such values;
how they are laid out is decided by `Binary64.render`.
-/

namespace BudgetedRun

namespace Json

/-- A finite binary64 value. -/
structure Binary64 where
  bits : UInt64
  finite : (bits >>> 52) &&& 0x7FF ≠ 0x7FF
deriving DecidableEq

namespace Binary64

/-- The value of a floating-point number, unless it is infinite or no number. -/
def ofFloat? (x : Float) : Option Binary64 :=
  if h : (x.toBits >>> 52) &&& 0x7FF ≠ 0x7FF then some ⟨x.toBits, h⟩ else none

/-- The sign bit. -/
def isNegative (x : Binary64) : Bool := x.bits >>> 63 == 1

/-- The absolute value as `mantissa * 2 ^ exponent`. -/
structure Parts where
  mantissa : Nat
  exponent : Int
  /-- The gap to the value below is half the gap to the value above. -/
  narrowBelow : Bool

/-- Take the bits apart. -/
def parts (x : Binary64) : Parts :=
  let field := ((x.bits >>> 52) &&& 0x7FF).toNat
  let fraction := (x.bits &&& 0xFFFFFFFFFFFFF).toNat
  if field = 0 then ⟨fraction, -1074, false⟩
  else ⟨fraction + 0x10000000000000, field - 1075, fraction == 0 && field > 1⟩

/-- Decimal digits with a power of ten: `digits * 10 ^ exponent`. -/
structure Decimal where
  digits : Nat
  exponent : Int
deriving DecidableEq

/-- Whether `a * 2 ^ p ≤ b * 10 ^ e`, in whole numbers. -/
def binaryLeDecimal (a : Nat) (p : Int) (b : Nat) (e : Int) : Bool :=
  a * Nat.pow 2 p.toNat * Nat.pow 10 (-e).toNat ≤ b * Nat.pow 10 e.toNat * Nat.pow 2 (-p).toNat

/-- Whether `b * 10 ^ e ≤ a * 2 ^ p`, in whole numbers. -/
def decimalLeBinary (b : Nat) (e : Int) (a : Nat) (p : Int) : Bool :=
  b * Nat.pow 10 e.toNat * Nat.pow 2 (-p).toNat ≤ a * Nat.pow 2 p.toNat * Nat.pow 10 (-e).toNat

namespace Parts

/-- The lower end of the reals that round to this value, in quarters of the last place. -/
def low (v : Parts) : Nat := if v.narrowBelow then 4 * v.mantissa - 1 else 4 * v.mantissa - 2

/-- The upper end of the reals that round to this value, in quarters of the last place. -/
def high (v : Parts) : Nat := 4 * v.mantissa + 2

/-- A decimal reads back as this value: it lies between the halfway points to the two neighbours,
which belong to the value if its mantissa is even. -/
def readsBack (v : Parts) (d : Decimal) : Bool :=
  let place := v.exponent - 2
  if v.mantissa % 2 = 0 then
    binaryLeDecimal v.low place d.digits d.exponent &&
      decimalLeBinary d.digits d.exponent v.high place
  else
    !decimalLeBinary d.digits d.exponent v.low place &&
      !binaryLeDecimal v.high place d.digits d.exponent

/-- The least `k` with the value below `10 ^ k`. -/
def magnitude (v : Parts) : Int :=
  let guess := ((v.mantissa.log2 : Int) + v.exponent) * 30103 / 100000
  if !decimalLeBinary 1 guess v.mantissa v.exponent then guess
  else if !decimalLeBinary 1 (guess + 1) v.mantissa v.exponent then guess + 1
  else guess + 2

/-- The decimals next to the value on the grid `10 ^ e`, and which of them is nearer. -/
def neighbours (v : Parts) (e : Int) : Decimal × Decimal × Bool :=
  let num := v.mantissa * Nat.pow 2 v.exponent.toNat * Nat.pow 10 (-e).toNat
  let den := Nat.pow 10 e.toNat * Nat.pow 2 (-v.exponent).toNat
  let d := num / den
  let twice := 2 * (num - d * den)
  (⟨d, e⟩, ⟨d + 1, e⟩, twice < den || (twice == den && d % 2 == 0))

/-- The nearest decimal on the grids with `count`, `count + 1`, … digits that reads back. -/
def search (v : Parts) (top : Int) : (count tries : Nat) → Decimal
  | _, 0 => (v.neighbours (top - 17)).1
  | count, tries + 1 =>
    let (below, above, belowNearer) := v.neighbours (top - count)
    match v.readsBack below, v.readsBack above with
    | true, true => if belowNearer then below else above
    | true, false => below
    | false, true => above
    | false, false => search v top (count + 1) tries

end Parts

namespace Decimal

/-- Without zeros at the end of the digits. -/
def strip (d : Decimal) : Decimal :=
  go d.digits d.digits d.exponent
where
  /-- Drop one zero after another; the first number bounds their count. -/
  go : Nat → Nat → Int → Decimal
    | 0, digits, e => ⟨digits, e⟩
    | fuel + 1, digits, e =>
      if digits ≠ 0 && digits % 10 == 0 then go (min fuel 20) (digits / 10) (e + 1) else ⟨digits, e⟩

/-- Positional from `10 ^ -5` up to `10 ^ 16`, always with a point; outside of that one digit
before the point and a signed exponent. -/
def render (d : Decimal) : String :=
  let digits := Nat.toDigits 10 d.digits
  let count := digits.length
  let e := d.exponent + (count - 1 : Nat)
  if 0 ≤ e && e < 16 then
    let whole := e.toNat + 1
    if count ≤ whole then
      String.ofList (digits ++ List.replicate (whole - count) '0' ++ ['.', '0'])
    else String.ofList (digits.take whole ++ '.' :: digits.drop whole)
  else if -5 ≤ e && e < 0 then
    String.ofList ('0' :: '.' :: List.replicate (-e - 1).toNat '0' ++ digits)
  else
    let fraction := if count = 1 then [] else '.' :: digits.drop 1
    let sign := if e < 0 then '-' else '+'
    String.ofList (digits.take 1 ++ fraction ++ 'e' :: sign :: Nat.toDigits 10 e.natAbs)

end Decimal

/-- The fewest decimal digits that read back as the value, without its sign. -/
def shortest (x : Binary64) : Decimal :=
  let v := x.parts
  if v.mantissa = 0 then ⟨0, 0⟩ else (v.search v.magnitude 1 17).strip

def render (x : Binary64) : String :=
  (if x.isNegative then "-" else "") ++ x.shortest.render

end Binary64

end Json

end BudgetedRun
