import ToonScript.Decimal.Binary64

/-!
# The shortest decimal of a double

Among the decimals that round to a given double, `shortest` takes one with the fewest digits
and, of those, the one nearest to the double. The search is exact: all comparisons are between
integers.

A decimal is a row of digits and the place of its point: the value is `0.d₁d₂… · 10 ^ point`.
-/

set_option autoImplicit false

namespace ToonScript.Decimal

/-- A decimal `0.d₁d₂… · 10 ^ point`, whose digits are those of `digits` in base ten. -/
structure Digits where
  digits : Nat
  point : Int
deriving DecidableEq, Repr

/-- A positive quotient of integers, whose divisor is not zero. -/
structure Quotient where
  num : Nat
  den : Nat

namespace Quotient

/-- The quotient `n · 2 ^ e`. -/
def scaleTwo (n : Nat) (e : Int) : Quotient :=
  if 0 ≤ e then ⟨n <<< e.toNat, 1⟩ else ⟨n, 1 <<< (-e).toNat⟩

/-- The quotient times `10 ^ e`. -/
def scaleTen (q : Quotient) (e : Int) : Quotient :=
  if 0 ≤ e then ⟨q.num * Nat.pow 10 e.toNat, q.den⟩ else ⟨q.num, q.den * Nat.pow 10 (-e).toNat⟩

/-- Compares a quotient with an integer. -/
def compareNat (q : Quotient) (n : Nat) : Ordering := compare q.num (n * q.den)

end Quotient

/-- The reals that round to a double, in units of a quarter of the double's last place. The ends
belong to it when `closed` holds. -/
structure RoundingInterval where
  value : Nat
  low : Nat
  high : Nat
  closed : Bool

/-- The rounding interval of a positive double. Below a power of two the doubles lie twice as
close, so the lower half of its interval is half as long. -/
def RoundingInterval.ofScaled (s : Scaled) : RoundingInterval :=
  let value := 4 * s.mantissa
  let narrow := s.mantissa = Scaled.leadingBit ∧ Scaled.leastExponent < s.exponent
  ⟨value, if narrow then value - 1 else value - 2, value + 2, s.mantissa % 2 == 0⟩

/-- The place `k` of the decimal point with `10 ^ (k - 1) ≤ v < 10 ^ k`, for the positive number
`v` whose largest power of two is `2 ^ top`. The logarithm estimate is at most one too small. -/
def pointPlace (v : Quotient) (top : Int) : Int :=
  let estimate := top * 30103 / 100000
  if (v.scaleTen (-estimate)).compareNat 1 == .lt then estimate
  else if (v.scaleTen (-estimate)).compareNat 10 == .lt then estimate + 1
  else estimate + 2

/-- The nearest of the two `count`-digit neighbours of a positive double that round to it, if
one does. Of two that are equally near the even one is taken. -/
def neighbour? (interval : RoundingInterval) (quarter : Int) (point : Int) (count : Nat) :
    Option Nat :=
  let onGrid (n : Nat) := (Quotient.scaleTwo n quarter).scaleTen (count - point)
  let value := onGrid interval.value
  let low := onGrid interval.low
  let high := onGrid interval.high
  let inside (n : Nat) : Bool :=
    match low.compareNat n, high.compareNat n with
    | .lt, .gt => true
    | .eq, _ => interval.closed
    | _, .eq => interval.closed
    | _, _ => false
  let below := value.num / value.den
  match inside below, inside (below + 1) with
  | false, false => none
  | true, false => some below
  | false, true => some (below + 1)
  | true, true =>
    match compare (2 * (value.num - below * value.den)) value.den with
    | .lt => some below
    | .gt => some (below + 1)
    | .eq => if below % 2 = 0 then some below else some (below + 1)

/-- Divides by ten as long as the last digit is zero and steps are left. -/
def dropZeros : Nat → Nat → Nat
  | 0, n => n
  | steps + 1, n => if n % 10 = 0 then dropZeros steps (n / 10) else n

/-- The shortest decimal that rounds to a positive finite double; seventeen digits always
suffice. -/
def shortest (s : Scaled) : Digits :=
  let interval := RoundingInterval.ofScaled s
  let quarter := s.exponent - 2
  let point :=
    pointPlace (Quotient.scaleTwo interval.value quarter) (Nat.log2 s.mantissa + s.exponent)
  let found := (List.range 17).findSome? fun i =>
    (neighbour? interval quarter point (i + 1)).map fun n => (i + 1, n)
  let (count, n) := found.getD (17, 0)
  if n = Nat.pow 10 count then ⟨1, point + 1⟩ else ⟨dropZeros count n, point⟩

end ToonScript.Decimal
