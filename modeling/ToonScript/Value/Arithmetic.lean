import ToonScript.Decimal.Binary64
import ToonScript.Value.Operation

/-!
# Arithmetic

On two integers arithmetic wraps around at 64 bits, division rounds toward zero, the remainder
has the sign of the dividend, and a power is cut off at the ends of the range. If one operand is
a double, so is the result. A text on the left of `+` takes the printed form of any right
operand.
-/

set_option autoImplicit false

namespace ToonScript

/-- An integer cut off at the ends of the 64-bit range. -/
def saturate (n : Int) : Int := max leastInt (min greatestInt n)

/-- The quotient of two integers, rounded toward zero: the quotient of their sizes, negative
unless both have the same sign. Zero counts as positive. -/
def truncatedQuotient (a b : Int) : Int :=
  let size : Int := (a.natAbs / b.natAbs : Nat)
  if 0 ≤ a ↔ 0 ≤ b then size else -size

/-- What the quotient rounded toward zero leaves of the dividend. -/
def truncatedRemainder (a b : Int) : Int := a - b * truncatedQuotient a b

/-- A number rounded to 53 significant bits, a half to the even neighbour, which gives the
nearest double. -/
def nearestDouble (n : Nat) : Nat :=
  let unit := 1 <<< (Nat.log2 n - 52)
  let below := n / unit
  let rest := n % unit
  if unit < 2 * rest ∨ unit = 2 * rest ∧ below % 2 = 1 then (below + 1) * unit else below * unit

/-- The power `a ^ b` for a negative `b`, computed on doubles and rounded toward zero. Zero has
no reciprocal, and its power is the greatest integer. Only for `1` and `-1` is the power at
least one in size, and its sign goes by the parity of the double nearest to the exponent. -/
def reciprocalPower (a b : Int) : Int :=
  if a = 0 then greatestInt
  else if a = 1 then 1
  else if a = -1 then if nearestDouble b.natAbs % 2 = 0 then 1 else -1
  else 0

/-- The power of two integers, cut off at the ends of the 64-bit range. A base of size at least
two leaves the range with an exponent of 64 or more, so no larger power is ever computed. -/
def integerPower (a b : Int) : Int :=
  if b < 0 then reciprocalPower a b
  else if a.natAbs ≤ 1 then if b = 0 then 1 else if b % 2 = 0 then a * a else a
  else if b < 64 then saturate (Int.pow a b.toNat)
  else if a < 0 ∧ b % 2 ≠ 0 then leastInt
  else greatestInt

/-- Arithmetic on two integers: the exact result, wrapped around. -/
def integerArithmetic (op : ArithmeticOp) (a b : Int) : Except OperationError Value :=
  match op with
  | .add => .ok (.ofInt (a + b))
  | .sub => .ok (.ofInt (a - b))
  | .div => if b = 0 then .error .divisionByZero else .ok (.ofInt (truncatedQuotient a b))
  | .mod => if b = 0 then .error .moduloByZero else .ok (.ofInt (truncatedRemainder a b))
  | .pow => .ok (.ofInt (integerPower a b))

/-- Arithmetic on two doubles. -/
def floatArithmetic (op : ArithmeticOp) (a b : Float) : Except OperationError Value :=
  match op with
  | .add => .ok (.float (a + b))
  | .sub => .ok (.float (a - b))
  | .div => if b == 0.0 then .error .divisionByZero else .ok (.float (a / b))
  | .mod =>
    if b == 0.0 then .error .moduloByZero
    else match Decimal.remainder? a b with
      | some r => .ok (.float r)
      | none => .error .infiniteDividend
  | .pow => .ok (.float (Float.pow a b))

/-- The double of an integer value, rounded to nearest. -/
def doubleOfInt (n : Int64) : Float := Float.ofInt n.toInt

/-- Applies an arithmetic operator. -/
def ArithmeticOp.apply (op : ArithmeticOp) (left right : Value) : Except OperationError Value :=
  match op, left, right with
  | .add, .string s, v => .ok (.string (s ++ v.text))
  | op, .int a, .int b => integerArithmetic op a.toInt b.toInt
  | op, .int a, .float b => floatArithmetic op (doubleOfInt a) b
  | op, .float a, .int b => floatArithmetic op a (doubleOfInt b)
  | op, .float a, .float b => floatArithmetic op a b
  | op, l, r => .error (.operands op.symbol l.ty r.ty)

/-- Applies the arithmetic operator that a text names. -/
def Value.arithmetic (symbol : String) (left right : Value) : Except OperationError Value :=
  match ArithmeticOp.all.find? fun op => op.symbol == symbol with
  | some op => op.apply left right
  | none => .error (.operands symbol left.ty right.ty)

end ToonScript
