/-!
# Finite doubles as scaled integers

A finite double is a sign and a magnitude `mantissa · 2 ^ exponent`. `Scaled.ofFloat` reads the
three parts off the bits, `Scaled.toFloat` writes a magnitude that a double can hold, and
`remainder` is the exact remainder of a division that rounds toward zero, computed on the
integers.
-/

set_option autoImplicit false

namespace ToonScript.Decimal

/-- A sign, which zero may carry too, and a magnitude `mantissa · 2 ^ exponent`. -/
structure Scaled where
  negative : Bool
  mantissa : Nat
  exponent : Int
deriving DecidableEq, Repr

namespace Scaled

/-- The least exponent of a double: all finite doubles are multiples of `2 ^ leastExponent`. -/
def leastExponent : Int := -1074

/-- The leading bit of a normal double, which its bits leave out. -/
def leadingBit : Nat := 1 <<< 52

/-- The parts of a finite double. An infinity or a NaN has no such parts, and its answer has no
meaning. -/
def ofFloat (x : Float) : Scaled :=
  let bits := x.toBits.toNat
  let field := (bits >>> 52) % 2048
  let fraction := bits % leadingBit
  let negative := bits >>> 63 == 1
  if field = 0 then ⟨negative, fraction, leastExponent⟩
  else ⟨negative, leadingBit + fraction, leastExponent + (field - 1 : Nat)⟩

/-- The double of a magnitude below `2 ^ 1024` with at most 53 significant bits, none of them
below `2 ^ leastExponent`. -/
def toFloat (s : Scaled) : Float :=
  let sign := if s.negative then 1 <<< 63 else 0
  if s.mantissa = 0 then Float.ofBits (UInt64.ofNat sign)
  else
    let top := Nat.log2 s.mantissa
    let field := (s.exponent - leastExponent) + top - 51
    let bits :=
      if field ≤ 0 then s.mantissa <<< (s.exponent - leastExponent).toNat
      else
        let significand :=
          if 52 ≤ top then s.mantissa >>> (top - 52) else s.mantissa <<< (52 - top)
        (field.toNat <<< 52) + (significand - leadingBit)
    Float.ofBits (UInt64.ofNat (sign + bits))

/-- The integer part of a number, with its sign. -/
def truncate (s : Scaled) : Int :=
  let size := if 0 ≤ s.exponent then s.mantissa <<< s.exponent.toNat
    else s.mantissa >>> (-s.exponent).toNat
  if s.negative then -size else size

end Scaled

/-- The remainder of `x / y` with the sign of `x`, for a finite `x` and a finite `y` that is not
zero. It is exact: the remainder of two doubles is a double. -/
def finiteRemainder (x y : Float) : Float :=
  let a := Scaled.ofFloat x
  let b := Scaled.ofFloat y
  let exponent := min a.exponent b.exponent
  let dividend := a.mantissa <<< (a.exponent - exponent).toNat
  let divisor := b.mantissa <<< (b.exponent - exponent).toNat
  Scaled.toFloat ⟨a.negative, dividend % divisor, exponent⟩

/-- The remainder of `x / y` with the sign of `x`, where `y` is not zero; `none` when `x` is
infinite and `y` is a number, because that remainder does not exist. A NaN makes the answer a
NaN, and a finite number is its own remainder by an infinity. -/
def remainder? (x y : Float) : Option Float :=
  if x.isNaN || y.isNaN then some (0.0 / 0.0)
  else if x.isInf then none
  else if y.isInf then some x
  else some (finiteRemainder x y)

end ToonScript.Decimal
