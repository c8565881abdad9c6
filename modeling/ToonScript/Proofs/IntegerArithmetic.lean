import Mathlib.Algebra.Order.Ring.Int
import Mathlib.Data.Rat.Floor
import Mathlib.Tactic.Linarith
import Mathlib.Tactic.Positivity
import ToonScript.Failure

/-!
# Arithmetic on integers of 64 bits

An operator on two integers has an exact result, which need not be an integer of 64 bits: it may
lie outside of the range, and a quotient or a power may be a fraction. This module says how the
result of the program comes from the exact one.

A fraction is cut off toward zero (`truncation`). After that, a quotient is wrapped around into
the range (`wrap`), which changes it in one case only, and with the remainder it makes up the
dividend again (`Value.division_law`). A power is cut off at the ends of the range (`saturate`).
For exponents that are not negative this is always the exact power, although large powers are
never computed (`Value.power_saturated`). For negative exponents it is the exact power too,
except that the sign of a power of minus one is lost where the exponent is odd and too large for
a double (`Value.reciprocal_power_truncated`).
-/

set_option autoImplicit false

namespace ToonScript

/-- An operator that is named by its sign is the operator. -/
theorem Value.arithmetic_symbol (op : ArithmeticOp) :
    Value.arithmetic op.symbol = op.apply := by
  cases op <;> rfl

/-! ## The range -/

/-- Wrapping around changes exactly the integers outside of the range. -/
theorem wrap_eq_self_iff {n : Int} : wrap n = n ↔ -2 ^ 63 ≤ n ∧ n < 2 ^ 63 := by
  rw [wrap, greatestInt]
  split <;> omega

theorem wrap_toInt (n : Int64) : wrap n.toInt = n.toInt :=
  wrap_eq_self_iff.mpr ⟨n.le_toInt, n.toInt_lt⟩

/-- Wrapping around adds a multiple of `2 ^ 64`. -/
theorem exists_wrap_eq_add (n : Int) : ∃ turns, wrap n = n + 18446744073709551616 * turns := by
  unfold wrap
  split
  · exact ⟨-(n / 18446744073709551616), by omega⟩
  · exact ⟨-(n / 18446744073709551616) - 1, by omega⟩

/-- A multiple of `2 ^ 64` does not change what an integer is wrapped around to. -/
theorem wrap_add_mul (n turns : Int) : wrap (n + 18446744073709551616 * turns) = wrap n := by
  rw [wrap, wrap, Int.add_mul_emod_self_left]

/-- A factor that is wrapped around gives the same product, up to wrapping around. -/
theorem wrap_mul_wrap_add (a b c : Int) : wrap (a * wrap b + c) = wrap (a * b + c) := by
  obtain ⟨turns, around⟩ := exists_wrap_eq_add b
  have moved : a * wrap b + c = a * b + c + 18446744073709551616 * (a * turns) := by
    rw [around]
    ring
  rw [moved, wrap_add_mul]

theorem wrap_saturate (n : Int) : wrap (saturate n) = saturate n := by
  rw [wrap_eq_self_iff, saturate, leastInt, greatestInt]
  omega

/-! ## Fractions -/

/-- The integer part of a fraction, which lies between the fraction and zero. -/
def truncation (x : ℚ) : Int := if 0 ≤ x then ⌊x⌋ else ⌈x⌉

theorem truncation_neg (x : ℚ) : truncation (-x) = -truncation x := by
  unfold truncation
  rcases lt_trichotomy x 0 with negative | rfl | positive
  · rw [if_pos (by linarith), if_neg (by linarith), Int.floor_neg]
  · simp
  · rw [if_neg (by linarith), if_pos (by linarith), Int.ceil_neg]

theorem truncation_natCast_div (m n : Nat) : truncation ((m : ℚ) / n) = (m / n : Nat) := by
  rw [truncation, if_pos (by positivity)]
  exact Rat.floor_natCast_div_natCast m n

/-- The integer part of a quotient is the quotient of the sizes, with the sign that both signs
give. -/
theorem truncation_div (a b : Int) : truncation ((a : ℚ) / b) = truncatedQuotient a b := by
  have sizes := truncation_natCast_div a.natAbs b.natAbs
  rw [Nat.cast_natAbs, Nat.cast_natAbs] at sizes
  rw [truncatedQuotient, ← sizes]
  by_cases positive : 0 ≤ a <;> by_cases positiveDivisor : 0 ≤ b
  · rw [if_pos (iff_of_true positive positiveDivisor), abs_of_nonneg positive,
      abs_of_nonneg positiveDivisor]
  · rw [if_neg (by tauto), abs_of_nonneg positive,
      abs_of_neg (not_le.mp positiveDivisor), Int.cast_neg, div_neg, truncation_neg, neg_neg]
  · rw [if_neg (by tauto), abs_of_neg (not_le.mp positive),
      abs_of_nonneg positiveDivisor, Int.cast_neg, neg_div, truncation_neg, neg_neg]
  · rw [if_pos (iff_of_false positive positiveDivisor), abs_of_neg (not_le.mp positive),
      abs_of_neg (not_le.mp positiveDivisor), Int.cast_neg, Int.cast_neg, neg_div_neg_eq]

/-! ## Division -/

theorem natAbs_truncatedQuotient (a b : Int) :
    (truncatedQuotient a b).natAbs = a.natAbs / b.natAbs := by
  rw [truncatedQuotient]
  split
  · exact Int.natAbs_natCast _
  · rw [Int.natAbs_neg, Int.natAbs_natCast]

/-- The remainder is that of the sizes, with the sign of the dividend. -/
theorem truncatedRemainder_eq (a b : Int) :
    truncatedRemainder a b = if 0 ≤ a then ((a.natAbs % b.natAbs : Nat) : Int)
      else -((a.natAbs % b.natAbs : Nat) : Int) := by
  have sizes : (b.natAbs : Int) * (a.natAbs / b.natAbs : Nat) +
      (a.natAbs % b.natAbs : Nat) = a.natAbs :=
    mod_cast Nat.div_add_mod a.natAbs b.natAbs
  rw [truncatedRemainder, truncatedQuotient]
  generalize a.natAbs / b.natAbs = quotient, a.natAbs % b.natAbs = remainder at sizes
  by_cases positive : 0 ≤ a <;> by_cases positiveDivisor : 0 ≤ b
  · rw [if_pos (iff_of_true positive positiveDivisor), if_pos positive]
    rw [Int.natAbs_of_nonneg positive, Int.natAbs_of_nonneg positiveDivisor] at sizes
    linarith
  · have negativeDivisor : b ≤ 0 := by omega
    rw [if_neg (by tauto), if_pos positive]
    rw [Int.natAbs_of_nonneg positive, Int.ofNat_natAbs_of_nonpos negativeDivisor] at sizes
    linarith
  · have negative : a ≤ 0 := by omega
    rw [if_neg (by tauto), if_neg positive]
    rw [Int.ofNat_natAbs_of_nonpos negative, Int.natAbs_of_nonneg positiveDivisor] at sizes
    linarith
  · have negative : a ≤ 0 := by omega
    have negativeDivisor : b ≤ 0 := by omega
    rw [if_pos (iff_of_false positive positiveDivisor), if_neg positive]
    rw [Int.ofNat_natAbs_of_nonpos negative,
      Int.ofNat_natAbs_of_nonpos negativeDivisor] at sizes
    linarith

theorem natAbs_truncatedRemainder (a b : Int) :
    (truncatedRemainder a b).natAbs = a.natAbs % b.natAbs := by
  rw [truncatedRemainder_eq]
  split
  · exact Int.natAbs_natCast _
  · rw [Int.natAbs_neg, Int.natAbs_natCast]

theorem abs_truncatedRemainder_lt (a : Int) {b : Int} (nonzero : b ≠ 0) :
    |truncatedRemainder a b| < |b| := by
  have small := Nat.mod_lt a.natAbs (Int.natAbs_pos.mpr nonzero)
  rw [Int.abs_eq_natAbs, Int.abs_eq_natAbs, natAbs_truncatedRemainder]
  exact Int.ofNat_lt.mpr small

theorem sign_truncatedRemainder (a b : Int) :
    truncatedRemainder a b = 0 ∨ (truncatedRemainder a b).sign = a.sign := by
  rw [truncatedRemainder_eq]
  rcases Nat.eq_zero_or_pos (a.natAbs % b.natAbs) with zero | positive
  · left
    rw [zero]
    split <;> rfl
  · right
    have smaller := Nat.mod_le a.natAbs b.natAbs
    split
    · rw [Int.sign_eq_one_of_pos (by omega), Int.sign_eq_one_of_pos (by omega)]
    · rw [Int.sign_eq_neg_one_of_neg (by omega), Int.sign_eq_neg_one_of_neg (by omega)]

/-- The remainder lies between zero and the dividend, so it is an integer of 64 bits. -/
theorem wrap_truncatedRemainder (a : Int64) (b : Int) :
    wrap (truncatedRemainder a.toInt b) = truncatedRemainder a.toInt b := by
  have smaller := Nat.mod_le a.toInt.natAbs b.natAbs
  have lower := a.le_toInt
  have upper := a.toInt_lt
  rw [wrap_eq_self_iff, truncatedRemainder_eq]
  split <;> omega

/-- The only quotient that is no integer of 64 bits is that of the least one by minus one. -/
theorem wrap_truncatedQuotient_eq_self_iff (a b : Int64) :
    wrap (truncatedQuotient a.toInt b.toInt) = truncatedQuotient a.toInt b.toInt ↔
      ¬(a.toInt = -2 ^ 63 ∧ b.toInt = -1) := by
  constructor
  · rintro fits ⟨least, minusOne⟩
    rw [least, minusOne] at fits
    exact absurd fits (by decide)
  · intro other
    have lower := a.le_toInt
    have upper := a.toInt_lt
    have size := natAbs_truncatedQuotient a.toInt b.toInt
    rw [wrap_eq_self_iff]
    by_cases halved : 2 ≤ b.toInt.natAbs
    · have small : a.toInt.natAbs / b.toInt.natAbs ≤ a.toInt.natAbs / 2 :=
        Nat.div_le_div_left halved Nat.zero_lt_two
      omega
    · obtain zero | one | minusOne : b.toInt = 0 ∨ b.toInt = 1 ∨ b.toInt = -1 := by omega
      · have nothing : a.toInt.natAbs / b.toInt.natAbs = 0 := by simp [zero]
        omega
      · have whole : truncatedQuotient a.toInt b.toInt = a.toInt := by
          rw [one, truncatedQuotient, Int.natAbs_one, Nat.div_one]
          split <;> omega
        omega
      · have whole : a.toInt.natAbs / b.toInt.natAbs = a.toInt.natAbs := by simp [minusOne]
        have notLeast : a.toInt ≠ -2 ^ 63 := fun least => other ⟨least, minusOne⟩
        omega

/-- Divisor, quotient and remainder make up the dividend again, up to wrapping around. -/
theorem wrap_mul_quotient_add_remainder (a : Int64) (b : Int) :
    wrap (b * wrap (truncatedQuotient a.toInt b) + truncatedRemainder a.toInt b) = a.toInt := by
  rw [wrap_mul_wrap_add, truncatedRemainder, add_sub_cancel, wrap_toInt]

/-- They do so exactly where the quotient is not wrapped around. -/
theorem mul_quotient_add_remainder_eq_iff (a b : Int64) (nonzero : b.toInt ≠ 0) :
    b.toInt * wrap (truncatedQuotient a.toInt b.toInt) + truncatedRemainder a.toInt b.toInt =
      a.toInt ↔ ¬(a.toInt = -2 ^ 63 ∧ b.toInt = -1) := by
  rw [← wrap_truncatedQuotient_eq_self_iff, truncatedRemainder]
  constructor
  · intro same
    have products : b.toInt * wrap (truncatedQuotient a.toInt b.toInt) =
        b.toInt * truncatedQuotient a.toInt b.toInt := by
      omega
    exact mul_left_cancel₀ nonzero products
  · intro fits
    rw [fits, add_sub_cancel]

namespace Value

theorem arithmetic_div (a b : Int64) : Value.arithmetic "/" (.int a) (.int b) =
    if b.toInt = 0 then .error .divisionByZero
    else .ok (.ofInt (truncatedQuotient a.toInt b.toInt)) :=
  congrFun (congrFun (arithmetic_symbol .div) _) _

theorem arithmetic_mod (a b : Int64) : Value.arithmetic "%" (.int a) (.int b) =
    if b.toInt = 0 then .error .moduloByZero
    else .ok (.ofInt (truncatedRemainder a.toInt b.toInt)) :=
  congrFun (congrFun (arithmetic_symbol .mod) _) _

/-- **The law of division.** A quotient and a remainder are refused exactly for the divisor
zero. Otherwise the quotient is the integer part of the exact one, wrapped around, which changes
it only for the least integer by minus one; the remainder is smaller than the divisor and is
zero or has the sign of the dividend; and they make up the dividend again, with wrapping around
always, and without it in all but that one case. -/
theorem division_law (a b : Int64) :
    (∀ sign ∈ ["/", "%"], (∃ error, Value.arithmetic sign (.int a) (.int b) = .error error ∧
      (Failure.operation error).category.label = "ZeroDivisionError") ↔ b.toInt = 0) ∧
    (b.toInt ≠ 0 → ∃ quotient remainder : Int64,
      Value.arithmetic "/" (.int a) (.int b) = .ok (.int quotient) ∧
      Value.arithmetic "%" (.int a) (.int b) = .ok (.int remainder) ∧
      quotient.toInt = wrap (truncation ((a.toInt : ℚ) / b.toInt)) ∧
      (wrap (truncation ((a.toInt : ℚ) / b.toInt)) = truncation ((a.toInt : ℚ) / b.toInt) ↔
        ¬(a.toInt = -2 ^ 63 ∧ b.toInt = -1)) ∧
      |remainder.toInt| < |b.toInt| ∧
      (remainder.toInt = 0 ∨ remainder.toInt.sign = a.toInt.sign) ∧
      wrap (b.toInt * quotient.toInt + remainder.toInt) = a.toInt ∧
      (b.toInt * quotient.toInt + remainder.toInt = a.toInt ↔
        ¬(a.toInt = -2 ^ 63 ∧ b.toInt = -1))) := by
  have held (n : Int) : (Int64.ofInt (wrap n)).toInt = wrap n := by
    rw [toInt_ofInt_eq_wrap, wrap_wrap]
  refine ⟨?_, fun nonzero => ⟨Int64.ofInt (wrap (truncatedQuotient a.toInt b.toInt)),
    Int64.ofInt (wrap (truncatedRemainder a.toInt b.toInt)), ?_, ?_, ?_⟩⟩
  · rw [List.forall_mem_cons, List.forall_mem_singleton, arithmetic_div, arithmetic_mod]
    by_cases zero : b.toInt = 0
    · simp only [zero, if_true]
      exact ⟨iff_true_intro ⟨_, rfl, rfl⟩, iff_true_intro ⟨_, rfl, rfl⟩⟩
    · simp only [zero, if_false, reduceCtorEq, false_and, exists_false, and_self]
  · rw [arithmetic_div, if_neg nonzero, ofInt]
  · rw [arithmetic_mod, if_neg nonzero, ofInt]
  · rw [held, held, wrap_truncatedRemainder, truncation_div]
    exact ⟨rfl, wrap_truncatedQuotient_eq_self_iff a b, abs_truncatedRemainder_lt _ nonzero,
      sign_truncatedRemainder _ _, wrap_mul_quotient_add_remainder a _,
      mul_quotient_add_remainder_eq_iff a b nonzero⟩

/-- The least integer by minus one is wrapped around and leaves no remainder; seven by minus two
leaves one. Zero is refused as a divisor. -/
theorem division_law_overflow :
    (∃ error, Value.arithmetic "%" (.int 7) (.int 0) = .error error ∧
      (Failure.operation error).category.label = "ZeroDivisionError") ∧
    (∃ quotient remainder : Int64,
      Value.arithmetic "/" (.int Int64.minValue) (.int (-1)) = .ok (.int quotient) ∧
      Value.arithmetic "%" (.int Int64.minValue) (.int (-1)) = .ok (.int remainder) ∧
      wrap (-1 * quotient.toInt + remainder.toInt) = -2 ^ 63 ∧
      -1 * quotient.toInt + remainder.toInt ≠ -2 ^ 63) ∧
    ∃ quotient remainder : Int64,
      Value.arithmetic "/" (.int 7) (.int (-2)) = .ok (.int quotient) ∧
      Value.arithmetic "%" (.int 7) (.int (-2)) = .ok (.int remainder) ∧
      |remainder.toInt| < 2 ∧ -2 * quotient.toInt + remainder.toInt = 7 := by
  obtain ⟨refused, -⟩ := division_law 7 0
  obtain ⟨-, wraps⟩ := division_law Int64.minValue (-1)
  obtain ⟨-, divides⟩ := division_law 7 (-2)
  obtain ⟨q, r, isQuotient, isRemainder, -, -, -, -, wrapped, kept⟩ := wraps (by decide)
  obtain ⟨q', r', isQuotient', isRemainder', -, -, small, -, -, kept'⟩ := divides (by decide)
  exact ⟨(refused "%" (by decide)).mpr rfl,
    ⟨q, r, isQuotient, isRemainder, wrapped, fun same => kept.mp same ⟨rfl, rfl⟩⟩,
    ⟨q', r', isQuotient', isRemainder', small, kept'.mpr (by decide)⟩⟩

end Value

/-! ## Powers -/

/-- A power of zero, one or minus one takes no more than one product. -/
theorem pow_of_natAbs_le_one {a : Int} (unit : a.natAbs ≤ 1) (n : Nat) :
    a ^ n = if (n : Int) = 0 then 1 else if (n : Int) % 2 = 0 then a * a else a := by
  rcases Nat.eq_zero_or_pos n with rfl | positive
  · rw [pow_zero, if_pos Nat.cast_zero]
  · rw [if_neg (by omega)]
    obtain rfl | rfl | rfl : a = 0 ∨ a = 1 ∨ a = -1 := by omega
    · simp [zero_pow positive.ne']
    · simp
    · rcases Nat.even_or_odd n with even | odd
      · rw [even.neg_one_pow, if_pos (mod_cast Nat.even_iff.mp even)]
        rfl
      · rw [odd.neg_one_pow, if_neg]
        rw [Nat.odd_iff] at odd
        omega

theorem saturate_eq_self {n : Int} (lower : leastInt ≤ n) (upper : n ≤ greatestInt) :
    saturate n = n := by
  rw [saturate, min_eq_right upper, max_eq_right lower]

theorem two_pow_le_natAbs_pow {a : Int} (large : 2 ≤ a.natAbs) (n : Nat) :
    2 ^ n ≤ (a ^ n).natAbs := by
  rw [Int.natAbs_pow]
  exact Nat.pow_le_pow_left large n

/-- A power of a base of size at least two with an exponent of at least 64 lies beyond that end
of the range which has the sign of the power. -/
theorem saturate_pow_of_large {a : Int} (large : 2 ≤ a.natAbs) {n : Nat} (many : 64 ≤ n) :
    saturate (a ^ n) = if a < 0 ∧ (n : Int) % 2 ≠ 0 then leastInt else greatestInt := by
  have size : 2 ^ 64 ≤ (a ^ n).natAbs :=
    (Nat.pow_le_pow_right (by decide) many).trans (two_pow_le_natAbs_pow large n)
  split
  · next odd =>
      have below : a ^ n < 0 := Odd.pow_neg (Nat.odd_iff.mpr (by omega)) odd.1
      rw [saturate, leastInt, greatestInt]
      omega
  · next other =>
      have above : 0 ≤ a ^ n := by
        rcases Nat.even_or_odd n with even | odd
        · exact even.pow_nonneg a
        · rw [Nat.odd_iff] at odd
          exact pow_nonneg (by omega) n
      rw [saturate, leastInt, greatestInt]
      omega

/-- The power that the program computes is the exact one, cut off at the ends of the range. -/
theorem integerPower_eq_saturate (a : Int) {b : Int} (nonnegative : 0 ≤ b) :
    integerPower a b = saturate (a ^ b.toNat) := by
  obtain ⟨n, rfl⟩ := Int.eq_ofNat_of_zero_le nonnegative
  rw [integerPower, if_neg (not_lt.mpr nonnegative), Int.toNat_natCast]
  split
  · next unit =>
      have power := pow_of_natAbs_le_one unit n
      have size : (a ^ n).natAbs ≤ 1 := by
        rw [Int.natAbs_pow]
        exact pow_le_one₀ (Nat.zero_le _) unit
      rw [saturate_eq_self (by rw [leastInt]; omega) (by rw [greatestInt]; omega), power]
  · next large =>
      split
      · rfl
      · next many => rw [saturate_pow_of_large (by omega) (by omega)]

/-- A power of a negative exponent is one over a power. -/
theorem zpow_eq_one_div (a : Int) {b : Int} (negative : b < 0) :
    (a : ℚ) ^ b = (1 : Int) / (a ^ b.natAbs : Int) := by
  obtain ⟨n, rfl⟩ : ∃ n : Nat, b = -n := ⟨b.natAbs, by omega⟩
  rw [zpow_neg, zpow_natCast, Int.natAbs_neg, Int.natAbs_natCast, Int.cast_pow,
    Int.cast_one, one_div]

/-- The integer part of an exact power of a negative exponent, which is not zero only for the
bases one and minus one. -/
theorem truncation_zpow {a b : Int} (negative : b < 0) :
    truncation ((a : ℚ) ^ b) = if a = 1 then 1 else if a = -1 then if b % 2 =
      0 then 1 else -1 else 0 := by
  rw [zpow_eq_one_div a negative, truncation_div]
  split
  · next one =>
      rw [one, one_pow]
      rfl
  · next notOne =>
      split
      · next minusOne =>
          rw [minusOne, pow_of_natAbs_le_one (by decide), if_neg (by omega)]
          split <;> split
          · rfl
          · omega
          · omega
          · rfl
      · next notMinusOne =>
          have noUnit : (a ^ b.natAbs).natAbs ≠ 1 := by
            rw [Int.natAbs_pow, Ne, Nat.pow_eq_one]
            omega
          rw [← Int.natAbs_eq_zero, natAbs_truncatedQuotient]
          refine Nat.div_eq_zero_iff.mpr ?_
          rw [Int.natAbs_one]
          omega

/-- A number up to `2 ^ 53` is a double. -/
theorem nearestDouble_of_le {n : Nat} (near : n ≤ 2 ^ 53) : nearestDouble n = n := by
  rcases Nat.lt_or_eq_of_le near with below | rfl
  · have short : Nat.log2 n - 52 = 0 := by
      rcases Nat.eq_zero_or_pos n with rfl | positive
      · rfl
      · have bits := (Nat.log2_lt positive.ne').mpr below
        omega
    rw [nearestDouble, short]
    simp [Nat.mod_one]
  · decide

/-- A double above `2 ^ 53` is a multiple of a power of two that is not one. -/
theorem nearestDouble_even {n : Nat} (far : 2 ^ 53 < n) : nearestDouble n % 2 = 0 := by
  have long : 53 ≤ Nat.log2 n := (Nat.le_log2 (by omega)).mpr far.le
  obtain ⟨further, excess⟩ : ∃ further, Nat.log2 n - 52 = further + 1 :=
    ⟨Nat.log2 n - 53, by omega⟩
  have even : 2 ∣ 1 <<< (Nat.log2 n - 52) := by
    rw [excess, Nat.one_shiftLeft, Nat.pow_succ]
    exact Nat.dvd_mul_left 2 _
  refine Nat.mod_eq_zero_of_dvd ?_
  rw [nearestDouble]
  split
  · exact even.mul_left _
  · exact even.mul_left _

/-- The parity of a number is kept by the nearest double up to `2 ^ 53`, and lost above. -/
theorem nearestDouble_mod_two (n : Nat) :
    nearestDouble n % 2 = 0 ↔ n % 2 = 0 ∨ 2 ^ 53 < n := by
  rcases Nat.lt_or_ge (2 ^ 53) n with far | near
  · exact iff_of_true (nearestDouble_even far) (.inr far)
  · rw [nearestDouble_of_le near]
    omega

theorem wrap_reciprocalPower (a b : Int) :
    wrap (reciprocalPower a b) = reciprocalPower a b := by
  rw [wrap_eq_self_iff, reciprocalPower, greatestInt]
  split_ifs <;> decide

/-- Only powers of minus one differ from the exact ones, and only for odd exponents that no
double can hold. -/
theorem reciprocalPower_eq_truncation_iff {a b : Int} (nonzero : a ≠ 0) (negative : b < 0) :
    reciprocalPower a b = truncation ((a : ℚ) ^ b) ↔ ¬(a = -1 ∧ b % 2 = 1 ∧ b < -2 ^ 53) := by
  simp only [truncation_zpow negative, reciprocalPower, if_neg nonzero, nearestDouble_mod_two]
  by_cases lost : a = -1 ∧ b % 2 = 1 ∧ b < -2 ^ 53
  · -- The exponent counts as even because it is large.
    obtain ⟨rfl, odd, far⟩ := lost
    have notEven : ¬b % 2 = 0 := by omega
    rw [if_neg (by decide), if_pos rfl, if_pos (by omega), if_neg (by decide), if_pos rfl,
      if_neg notEven]
    exact iff_of_false (by decide) (not_not.mpr ⟨rfl, odd, far⟩)
  · refine iff_of_true ?_ lost
    split_ifs <;> omega

namespace Value

theorem arithmetic_pow (a b : Int64) : Value.arithmetic "^" (.int a) (.int b) =
    .ok (.ofInt (integerPower a.toInt b.toInt)) :=
  congrFun (congrFun (arithmetic_symbol .pow) _) _

/-- **Powers are saturated.** For an exponent that is not negative, the program computes the
exact power, cut off at the ends of the range, and wrapping it around does not change it. -/
theorem power_saturated (a b : Int64) (nonnegative : 0 ≤ b.toInt) :
    ∃ power : Int64, Value.arithmetic "^" (.int a) (.int b) = .ok (.int power) ∧
      power.toInt = max (-2 ^ 63) (min (2 ^ 63 - 1) (a.toInt ^ b.toInt.toNat)) ∧
      power.toInt = integerPower a.toInt b.toInt := by
  have saturated := integerPower_eq_saturate a.toInt nonnegative
  have kept : (Int64.ofInt (integerPower a.toInt b.toInt)).toInt =
      integerPower a.toInt b.toInt := by
    rw [toInt_ofInt_eq_wrap, saturated, wrap_saturate]
  rw [arithmetic_pow, ofInt_eq]
  exact ⟨_, rfl, kept.trans saturated, kept⟩

/-- Powers at the ends of the range, where large ones are not computed: `2 ^ 63` is too large by
one, `(-2) ^ 63` is the least integer, and `(-2) ^ 65` lies below it. -/
theorem power_saturated_ends :
    (0 : Int) ≤ (63 : Int64).toInt ∧ (0 : Int) ≤ (65 : Int64).toInt ∧
    (∃ power : Int64, Value.arithmetic "^" (.int 2) (.int 63) = .ok (.int power) ∧
      power.toInt = 2 ^ 63 - 1) ∧
    (∃ power : Int64, Value.arithmetic "^" (.int (-2)) (.int 63) = .ok (.int power) ∧
      power.toInt = (-2) ^ 63) ∧
    ∃ power : Int64, Value.arithmetic "^" (.int (-2)) (.int 65) = .ok (.int power) ∧
      power.toInt = -2 ^ 63 := by
  obtain ⟨large, computesLarge, isLarge, -⟩ := power_saturated 2 63 (by decide)
  obtain ⟨least, computesLeast, isLeast, -⟩ := power_saturated (-2) 63 (by decide)
  obtain ⟨small, computesSmall, isSmall, -⟩ := power_saturated (-2) 65 (by decide)
  exact ⟨by decide, by decide, ⟨large, computesLarge, isLarge.trans (by decide)⟩,
    ⟨least, computesLeast, isLeast.trans (by decide)⟩,
    ⟨small, computesSmall, isSmall.trans (by decide)⟩⟩

/-- **Powers of negative exponents.** The power of zero is the greatest integer. Every other
power is the exact one, cut off toward zero, except for powers of minus one whose exponent is
odd and below `-2 ^ 53`: these are one, although the exact power is minus one. -/
theorem reciprocal_power_truncated (a b : Int64) (negative : b.toInt < 0) :
    ∃ power : Int64, Value.arithmetic "^" (.int a) (.int b) = .ok (.int power) ∧
      (a.toInt = 0 → power.toInt = 2 ^ 63 - 1) ∧
      (a.toInt ≠ 0 → (power.toInt = truncation ((a.toInt : ℚ) ^ b.toInt) ↔
        ¬(a.toInt = -1 ∧ b.toInt % 2 = 1 ∧ b.toInt < -2 ^ 53))) ∧
      (a.toInt = -1 ∧ b.toInt % 2 = 1 ∧ b.toInt < -2 ^ 53 → power.toInt = 1) := by
  have fits := wrap_reciprocalPower a.toInt b.toInt
  rw [arithmetic_pow, ofInt_eq]
  refine ⟨_, rfl, ?_⟩
  rw [integerPower, if_pos negative, toInt_ofInt_eq_wrap, fits]
  refine ⟨?_, fun nonzero => reciprocalPower_eq_truncation_iff nonzero negative, ?_⟩
  · intro zero
    rw [reciprocalPower, if_pos zero]
    rfl
  · rintro ⟨minusOne, -, far⟩
    rw [minusOne, reciprocalPower, if_neg (by decide), if_neg (by decide), if_pos rfl, if_pos]
    rw [nearestDouble_mod_two]
    omega

/-- The sign of a power of minus one is right at the last odd exponent that a double holds; a
third is cut off to zero, and the power of zero is the greatest integer. -/
theorem reciprocal_power_truncated_near :
    (∃ power : Int64, Value.arithmetic "^" (.int (-1)) (.int (-9007199254740991)) =
      .ok (.int power) ∧
      power.toInt = truncation (((-1 : Int) : ℚ) ^ (-9007199254740991 : Int))) ∧
    (∃ power : Int64, Value.arithmetic "^" (.int 3) (.int (-1)) = .ok (.int power) ∧
      power.toInt = truncation (((3 : Int) : ℚ) ^ (-1 : Int))) ∧
    ∃ power : Int64, Value.arithmetic "^" (.int 0) (.int (-1)) = .ok (.int power) ∧
      power.toInt = 2 ^ 63 - 1 := by
  obtain ⟨power, computes, -, agrees, -⟩ :=
    reciprocal_power_truncated (-1) (-9007199254740991) (by decide)
  obtain ⟨third, computesThird, -, agreesThird, -⟩ :=
    reciprocal_power_truncated 3 (-1) (by decide)
  obtain ⟨greatest, computesGreatest, isGreatest, -⟩ :=
    reciprocal_power_truncated 0 (-1) (by decide)
  exact ⟨⟨power, computes, (agrees (by decide)).mpr (by decide)⟩,
    ⟨third, computesThird, (agreesThird (by decide)).mpr (by decide)⟩,
    ⟨greatest, computesGreatest, isGreatest rfl⟩⟩

/-- The exact power of minus one by `-(2 ^ 53 + 1)` is minus one, and the program computes one.
-/
theorem reciprocal_power_loses_sign :
    Value.arithmetic "^" (.int (-1)) (.int (-9007199254740993)) = .ok (.int 1) ∧
      truncation (((-1 : Int) : ℚ) ^ (-9007199254740993 : Int)) = -1 :=
  ⟨by decide, (truncation_zpow (by decide)).trans (by decide)⟩

end Value

end ToonScript
