import Mathlib.Algebra.Ring.Nat
import ToonScript.Proofs.ValueTypes

/-!
# Remainders that do not exist

An operator without a value stops a program with a failure, except for one: the remainder of an
infinite dividend, which no failure describes. This module says when that happens.

The dividend is then a double, and not an integer that was turned into one, because the double
of a 64-bit integer is a number (`doubleOfInt_isInf`); and the divisor is a number other than
zero (`ArithmeticOp.eq_mod_of_infiniteDividend`). An evaluation that stops there has just read
the remainder: the tokens before the place where it stops spell a dividend, the sign and a
divisor with these values (`Expression.evaluate_telling`). The same walk through the tiers of
expressions shows that the token of a structural failure of an evaluation is the next one at the
place where it stops.
-/

set_option autoImplicit false

namespace ToonScript

open Token (Kind)

/-! ## Integers are finite doubles -/

section Doubles

open Float.Model (Format totalExponent UnpackedFloat)
open Float.Model.UnpackedFloat (ExtendedMantissa Accuracy shiftToTargetExponent
  roundWithAccuracy packComponents unpackExponent unpackMantissa)

namespace Decimal

/-- A number, neither an infinity nor a NaN, with a mantissa of so many bits and an exponent of
at most `bound`. -/
inductive Moderate (bits : Nat) (bound : Int) : UnpackedFloat → Prop where
  | zero (sign : UnpackedFloat.Sign) : Moderate bits bound (.zero sign)
  | finite {sign : UnpackedFloat.Sign} {mantissa : Nat} {exponent : Int}
      {positive : 0 < mantissa} (few : mantissa < 2 ^ bits) (low : exponent ≤ bound) :
      Moderate bits bound (.finite sign mantissa exponent positive)

theorem Moderate.isInf {bits : Nat} {bound : Int} {x : UnpackedFloat}
    (moderate : Moderate bits bound x) :
    x.isInf = false := by
  cases moderate with
  | zero | finite => rfl

theorem Moderate.neg {bits : Nat} {bound : Int} {x : UnpackedFloat}
    (moderate : Moderate bits bound x) :
    Moderate bits bound x.neg := by
  cases moderate with
  | zero sign => exact .zero (-sign)
  | finite few low => exact .finite few low

theorem log2_le_of_lt {mantissa bits : Nat} (small : mantissa < 2 ^ bits) :
    mantissa.log2 ≤ bits := by
  by_cases zero : mantissa = 0
  · simp [zero]
  · exact Nat.le_of_lt ((Nat.log2_lt zero).mpr small)

/-! ### Rounding -/

theorem shiftRight_mantissa_le (extended : ExtendedMantissa) (amount : Nat) :
    (extended >>> amount).mantissa ≤ extended.mantissa := by
  induction amount with
  | zero => exact Nat.le_refl _
  | succ amount ih => exact Nat.le_trans (Nat.div_le_self _ 2) ih

theorem roundedMantissa_le (extended : ExtendedMantissa) :
    extended.roundedMantissa ≤ extended.mantissa + 1 := by
  obtain ⟨mantissa, roundBit, stickyBit⟩ := extended
  cases roundBit <;> cases stickyBit <;>
    simp only [ExtendedMantissa.roundedMantissa, ExtendedMantissa.accuracy,
      Accuracy.roundToNearestEven] <;> omega

/-- Shifting to the target exponent drops bits and raises the exponent by no more than there are
bits. -/
theorem shiftToTargetExponent_le {mantissa bits : Nat} (small : mantissa < 2 ^ bits)
    (exponent : Int) (accuracy : Accuracy) :
    (shiftToTargetExponent .binary64 mantissa exponent accuracy).1.mantissa ≤ mantissa ∧
      (shiftToTargetExponent .binary64 mantissa exponent accuracy).2 ≤
        max exponent (-1074) + bits := by
  have width := log2_le_of_lt small
  constructor
  · refine Nat.le_trans (shiftRight_mantissa_le _ _) ?_
    cases accuracy with
    | exact => exact Nat.le_refl _
    | inexact order => cases order <;> exact Nat.le_refl _
  · have target : Format.binary64.targetExponent (totalExponent mantissa exponent) =
        max (mantissa.log2 + 1 + exponent - 53) (-1074) := rfl
    have shifted : (shiftToTargetExponent .binary64 mantissa exponent accuracy).2 =
        exponent + (Format.binary64.targetExponent
          (totalExponent mantissa exponent) - exponent).toNat := rfl
    rw [shifted, target]
    omega

/-- Rounding adds at most one bit, and raises the exponent by no more than twice the number of
bits and one. -/
theorem roundWithAccuracy_moderate (sign : UnpackedFloat.Sign) {mantissa bits : Nat}
    (small : mantissa < 2 ^ bits) (exponent : Int) (accuracy : Accuracy) {bound : Int}
    (below : max exponent (-1074) + 2 * bits + 1 ≤ bound) :
    Moderate (bits + 1) bound (roundWithAccuracy .binary64 sign mantissa exponent
      accuracy) := by
  obtain ⟨less, raised⟩ := shiftToTargetExponent_le small exponent accuracy
  have rounded :=
    roundedMantissa_le (shiftToTargetExponent .binary64 mantissa exponent accuracy).1
  have small' : (shiftToTargetExponent .binary64 mantissa exponent accuracy).1.roundedMantissa <
      2 ^ (bits + 1) := by
    rw [Nat.pow_succ]
    omega
  obtain ⟨less', raised'⟩ :=
    shiftToTargetExponent_le small' (shiftToTargetExponent .binary64 mantissa exponent
      accuracy).2 .exact
  unfold roundWithAccuracy
  dsimp only
  generalize shiftToTargetExponent .binary64 _ _ .exact = shifted at less' raised' ⊢
  by_cases zero : shifted.1.mantissa = 0
  · rw [dif_pos zero]
    exact .zero sign
  · rw [dif_neg zero]
    exact .finite (by omega) (by omega)

/-- The product of two numbers has the bits of both, before it is rounded. -/
theorem Moderate.mul {bits bits' : Nat} {bound bound' limit : Int} {x y : UnpackedFloat}
    (moderate : Moderate bits bound x) (moderate' : Moderate bits' bound' y)
    (below : max (bound + bound') (-1074) + 2 * (bits + bits' : Nat) + 1 ≤ limit) :
    Moderate (bits + bits' + 1) limit (x.mul .binary64 y) := by
  cases moderate with
  | zero sign =>
      cases moderate' with
      | zero | finite => exact .zero _
  | finite few low =>
      cases moderate' with
      | zero => exact .zero _
      | finite few' low' =>
          refine roundWithAccuracy_moderate _ ?_ _ _ (by omega)
          rw [Nat.pow_add]
          exact Nat.mul_lt_mul'' few few'

/-! ### Packing -/

theorem unpack_moderate {packed : BitVec Format.binary64.numBits} {bound : Int}
    (finite : unpackExponent packed ≠ -1#11)
    (below : ((unpackExponent packed).toNat : Int) - 1075 ≤ bound) (above : -1074 ≤ bound) :
    Moderate 53 bound (UnpackedFloat.unpack .binary64 packed) := by
  delta UnpackedFloat.unpack
  dsimp only
  rw [if_neg finite]
  by_cases subnormal : unpackExponent packed = 0#11
  · rw [if_pos subnormal]
    by_cases zero : unpackMantissa packed = 0#52
    · rw [dif_pos zero]
      exact .zero _
    · rw [dif_neg zero]
      refine .finite
        (Nat.lt_of_lt_of_le (BitVec.isLt _) (Nat.pow_le_pow_right (by decide) (by decide))) ?_
      rw [subnormal]
      exact above
  · rw [if_neg subnormal]
    exact .finite (BitVec.isLt _) below

/-- A number whose exponent fits is packed as a number. -/
theorem pack_moderate {bits : Nat} {bound : Int} {x : UnpackedFloat}
    (moderate : Moderate bits bound x) (fits : bound ≤ 971) (above : -1074 ≤ bound) :
    Moderate 53 bound (Float.Model.pack x).unpack := by
  show Moderate 53 bound (UnpackedFloat.unpack .binary64 (UnpackedFloat.pack .binary64 x))
  have subnormal : ∀ sign fraction, Moderate 53 bound
      (UnpackedFloat.unpack .binary64 (packComponents .binary64 sign 0#11 fraction)) := by
    intro sign fraction
    refine unpack_moderate ?_ ?_ above
    · simp only [UnpackedFloat.unpackExponent_packComponents]
      decide
    · simp only [UnpackedFloat.unpackExponent_packComponents]
      exact Int.le_trans (by decide) above
  cases moderate with
  | zero sign => exact subnormal sign 0#52
  | @finite sign mantissa exponent positive few low =>
      -- The field of the exponent is not all ones, which is what marks an infinity or a NaN.
      have biased :
          ((exponent + (Format.binary64.exponentBias : Int) + (52 : Nat)).toNat : Int) ≤
          max (bound + 1075) 0 := by
        show ((exponent + 1023 + 52).toNat : Int) ≤ _
        omega
      delta UnpackedFloat.pack
      dsimp only
      split
      · next overflows =>
          have reached :
              2048 ≤ (exponent + (Format.binary64.exponentBias : Int) + (52 : Nat)).toNat + 1 :=
            overflows
          omega
      · split
        · refine unpack_moderate ?_ ?_ above
          · simp only [UnpackedFloat.unpackExponent_packComponents]
            intro same
            have values := congrArg BitVec.toNat same
            simp only [BitVec.toNat_ofNat] at values
            have top : (-1#11).toNat = 2047 := rfl
            omega
          · simp only [UnpackedFloat.unpackExponent_packComponents, BitVec.toNat_ofNat]
            omega
        · exact subnormal sign _

/-! ### Integers -/

/-- Rounding to the nearest double, where the exponent may have to be lowered first. -/
theorem round_moderate (sign : UnpackedFloat.Sign) {mantissa : Nat} (positive : mantissa ≠ 0)
    (small : mantissa < 2 ^ 53) :
    Moderate 54 107 (UnpackedFloat.round .binary64 sign mantissa 0) := by
  have width : mantissa.log2 < 53 := (Nat.log2_lt positive).mpr small
  have target : Format.binary64.targetExponent (totalExponent mantissa 0) =
      max ((mantissa.log2 : Int) + 1 + 0 - 53) (-1074) := rfl
  have amount : (0 - Format.binary64.targetExponent (totalExponent mantissa 0)).toNat =
      52 - mantissa.log2 := by
    rw [target]
    omega
  have shifted : mantissa <<< (52 - mantissa.log2) < 2 ^ 53 := by
    rw [Nat.shiftLeft_eq]
    calc mantissa * 2 ^ (52 - mantissa.log2)
        < 2 ^ (mantissa.log2 + 1) * 2 ^ (52 - mantissa.log2) :=
          Nat.mul_lt_mul_of_pos_right Nat.lt_log2_self (Nat.two_pow_pos _)
      _ = 2 ^ 53 := by rw [← Nat.pow_add]; congr 1; omega
  simp only [UnpackedFloat.round, UnpackedFloat.decreaseExponent, amount]
  exact roundWithAccuracy_moderate sign shifted _ _ (by omega)

/-- A natural number that a double holds exactly, as a double. -/
theorem toFloat_moderate {n : Nat} (small : n < 2 ^ 53) :
    Moderate 53 107 n.toUInt64.toFloat.toModel.unpack := by
  have same : n.toUInt64.toNat = n := by
    simp only [Nat.toUInt64, UInt64.toNat_ofNat']
    omega
  show Moderate 53 107
    (Float.Model.pack (UnpackedFloat.normalize .binary64 (n.toUInt64.toNat : Int) 0
      .positive)).unpack
  rw [same]
  have normalized :
      Moderate 54 107 (UnpackedFloat.normalize .binary64 (n : Int) 0 .positive) := by
    cases n with
    | zero => exact .zero _
    | succ n => exact round_moderate .positive (Nat.succ_ne_zero n) small
  exact pack_moderate normalized (by decide) (by decide)

theorem ofScientific_moderate {n : Nat} (small : n < 2 ^ 64) :
    Moderate 119 971 (UnpackedFloat.ofScientific .binary64 n 0) := by
  by_cases zero : n = 0
  · subst zero
    exact .zero _
  · have positive : 0 < n <<< 53 := by
      rw [Nat.shiftLeft_eq]
      omega
    have shifted : n <<< 53 < 2 ^ 117 := by
      rw [Nat.shiftLeft_eq]
      omega
    have tiny : ¬(0 : Int) < -(2 ^ Format.binary64.exponentBits + (n.log2 : Int)) := by
      show ¬(0 : Int) < -(2048 + (n.log2 : Int))
      omega
    have opened : UnpackedFloat.ofScientific .binary64 n 0 =
        UnpackedFloat.mul .binary64 (.finite .positive (n <<< 53) (-53) positive)
          (.finite .positive 1 0 Nat.one_pos) := by
      unfold UnpackedFloat.ofScientific
      rw [dif_neg zero, if_neg (by decide), if_neg tiny, if_pos (Int.le_refl 0)]
      rfl
    have left : Moderate 117 (-53) (.finite .positive (n <<< 53) (-53) positive) :=
      .finite shifted (Int.le_refl _)
    have right : Moderate 1 0 (.finite .positive 1 0 Nat.one_pos) :=
      .finite (by decide) (Int.le_refl _)
    rw [opened]
    exact left.mul right (by decide)

/-- A natural number below `2 ^ 64` as a double. A small one is converted and multiplied by the
first power of ten; the others go through the decimal notation. -/
theorem ofNat_moderate {n : Nat} (small : n < 2 ^ 64) :
    Moderate 53 971 (Float.ofNat n).toModel.unpack := by
  show Moderate 53 971 (Float.ofScientific n false 0).toModel.unpack
  unfold Float.ofScientific
  split
  · next direct =>
      have one : Moderate 53 0 (Float.ofBits 0x3FF0000000000000).toModel.unpack :=
        unpack_moderate (by decide) (by decide) (by decide)
      have product :
          Moderate 107 971 (UnpackedFloat.mul .binary64 n.toUInt64.toFloat.toModel.unpack
          (Float.ofBits 0x3FF0000000000000).toModel.unpack) :=
        (toFloat_moderate direct.1).mul one (by decide)
      exact pack_moderate product (by decide) (by decide)
  · exact pack_moderate (ofScientific_moderate small) (by decide) (by decide)

end Decimal

/-- The double of an integer is never an infinity. -/
theorem doubleOfInt_isInf (n : Int64) : (doubleOfInt n).isInf = false := by
  have below := Int64.toInt_lt n
  have above := Int64.le_toInt n
  unfold doubleOfInt
  generalize n.toInt = integer at below above
  cases integer with
  | ofNat k =>
      have small : k < 2 ^ 64 := by
        rw [Int.ofNat_eq_natCast] at below
        omega
      exact (Decimal.ofNat_moderate small).isInf
  | negSucc k =>
      have small : k + 1 < 2 ^ 64 := by omega
      exact (Decimal.pack_moderate (Decimal.ofNat_moderate small).neg (by decide)
        (by decide)).isInf

end Doubles

/-! ## Operators without a value -/

/-- A number by which a remainder can be asked for: neither zero nor a NaN. -/
def Value.isDivisor : Value → Bool
  | int n => n != 0
  | float y => !(y == 0.0) && !y.isNaN
  | _ => false

/-- Only a remainder of doubles fails for its dividend, which is infinite, and then the divisor
is a number that is not zero. -/
theorem floatArithmetic_infiniteDividend {op : ArithmeticOp} {x y : Float}
    (stuck : floatArithmetic op x y = .error .infiniteDividend) :
    op = .mod ∧ x.isInf = true ∧ (y == 0.0) = false ∧ y.isNaN = false := by
  cases op with
  | add | sub | pow => cases stuck
  | div =>
      simp only [floatArithmetic] at stuck
      split at stuck <;> cases stuck
  | mod =>
      simp only [floatArithmetic] at stuck
      split at stuck
      · cases stuck
      · next nonzero =>
          split at stuck
          · cases stuck
          · next missing =>
              simp only [Decimal.remainder?] at missing
              split at missing
              · cases missing
              · next numbers =>
                  split at missing
                  · next infinite =>
                      simp only [Bool.or_eq_true, not_or, Bool.not_eq_true] at numbers
                      exact ⟨rfl, infinite, Bool.of_not_eq_true nonzero, numbers.2⟩
                  · split at missing <;> cases missing

/-- **When an operator has an infinite dividend.** It is the remainder, its left operand is an
infinite double, and its right operand is a number that is neither zero nor a NaN. -/
theorem ArithmeticOp.eq_mod_of_infiniteDividend {op : ArithmeticOp} {left right : Value}
    (stuck : op.apply left right = .error .infiniteDividend) :
    op = .mod ∧ (∃ x, left = .float x ∧ x.isInf = true) ∧ right.isDivisor = true := by
  unfold apply at stuck
  split at stuck
  · cases stuck
  · unfold integerArithmetic at stuck
    repeat' split at stuck
    all_goals cases stuck
  · next a y =>
      -- The dividend would be an integer, and the double of an integer is finite.
      obtain ⟨-, infinite, -⟩ := floatArithmetic_infiniteDividend stuck
      rw [doubleOfInt_isInf] at infinite
      cases infinite
  · next x b =>
      obtain ⟨isMod, infinite, nonzero, -⟩ := floatArithmetic_infiniteDividend stuck
      refine ⟨isMod, ⟨x, rfl, infinite⟩, ?_⟩
      simp only [Value.isDivisor, bne_iff_ne]
      rintro rfl
      have zero : (doubleOfInt 0 == 0.0) = true := by decide
      rw [zero] at nonzero
      cases nonzero
  · next x y =>
      obtain ⟨isMod, infinite, nonzero, number⟩ := floatArithmetic_infiniteDividend stuck
      refine ⟨isMod, ⟨x, rfl, infinite⟩, ?_⟩
      simp only [Value.isDivisor, nonzero, number, Bool.not_false, Bool.and_self]
  · cases stuck

theorem ComparisonOp.apply_ne_infiniteDividend (op : ComparisonOp) (left right : Value) :
    op.apply left right ≠ .error .infiniteDividend := by
  intro stuck
  unfold apply at stuck
  repeat' split at stuck
  all_goals cases stuck

theorem LogicalOp.apply_ne_infiniteDividend (op : LogicalOp) (left right : Value) :
    op.apply left right ≠ .error .infiniteDividend := by
  intro stuck
  unfold apply at stuck
  split at stuck
  all_goals cases stuck

/-! ## Where an evaluation stops -/

/-- The tokens of a program before a place end with a remainder that has no value: its dividend
is an infinite double and its divisor is a number, neither zero nor a NaN. -/
def UndefinedRemainder (tokens : List Token) (bindings : Bindings) (rest : List Token) : Prop :=
  ∃ (front spelling : List Token) (dividend : Expr (.chain .product))
      (divisor : Expr .primary) (x : Float) (y : Value),
    tokens = front ++ spelling ++ rest ∧
      Spells spelling (Expr.extend dividend .mod divisor).symbols ∧
      dividend.value bindings = .ok (.float x) ∧ x.isInf = true ∧
      divisor.value bindings = .ok y ∧ y.isDivisor = true ∧
      (Expr.extend dividend .mod divisor).value bindings = .error .undefinedRemainder

/-- A text that is made of fixed words and of the lexemes of a program. -/
inductive Worded (tokens : List Token) : Text → Prop where
  | words (s : String) : Worded tokens s
  | lexeme {token : Token} (member : token ∈ tokens) : Worded tokens token.lexeme
  | append {text more : Text} (worded : Worded tokens text) (wordedMore : Worded tokens more) :
      Worded tokens (text ++ more)

/-- What a reason to stop tells about the place in a program: the token of a structural failure
is in the program, and such a failure has none only at the end of the tokens; an undefined
remainder stands right before the place. All that a message holds besides fixed words is in the
program. -/
def Stop.Tells (tokens : List Token) (bindings : Bindings) (rest : List Token) : Stop → Prop
  | .failure (.structural problem (some token)) =>
      Worded tokens problem.message ∧ token ∈ tokens
  | .failure (.structural problem none) => Worded tokens problem.message ∧ rest = []
  | .failure cause => Worded tokens cause.message
  | .undefinedRemainder => UndefinedRemainder tokens bindings rest
  | .outOfSteps => True

section Telling

variable {α β : Type} {tokens rest : List Token} {bindings : Bindings}

/-- Fixed words about a name. -/
theorem Worded.about {name : Text} (worded : Worded tokens name) (before behind : String) :
    Worded tokens (before ++ name ++ behind) :=
  ((Worded.words before).append worded).append (.words behind)

theorem Worded.mismatch {name : Text} (worded : Worded tokens name) (current assigned : Ty) :
    Worded tokens (Failure.mismatchMessage name current assigned) :=
  (((worded.about _ _).append (.words _)).append (.words _)).append (.words _)

theorem Worded.expected {context : Text} (kind : Kind) (worded : Worded tokens context) :
    Worded tokens (Structural.expected kind context).message :=
  (((Worded.words _).append (.words _)).append (.words _)).append worded

theorem Stop.tells_head (ahead : rest <:+ tokens) {problem : Structural}
    (worded : Worded tokens problem.message) :
    Stop.Tells tokens bindings rest (.failure (.structural problem rest.head?)) := by
  cases rest with
  | nil => exact ⟨worded, rfl⟩
  | cons token rest => exact ⟨worded, ahead.subset List.mem_cons_self⟩

theorem Stop.tells_ofOperation {error : OperationError} (finite : error ≠ .infiniteDividend) :
    Stop.Tells tokens bindings rest (.ofOperation error) := by
  cases error with
  | infiniteDividend => exact absurd rfl finite
  | _ => exact .words _

/-- A scan whose reason to stop, wherever it stops in a program, tells what it should. -/
structure Scan.Telling (tokens : List Token) (bindings : Bindings) (scan : Scan α) : Prop where
  stops : ∀ {cursor reason after}, cursor.rest <:+ tokens → scan cursor = .error reason after →
    Stop.Tells tokens bindings after.rest reason

namespace Scan.Telling

theorem bind {first : Scan α} {next : α → Scan β} (telling : Telling tokens bindings first)
    (goes : GoesAhead first) (tellingNext : ∀ a, Telling tokens bindings (next a)) :
    Telling tokens bindings (first >>= next) where
  stops ahead stops := by
    rcases bind_eq_error.mp stops with failed | ⟨a, middle, begun, ended⟩
    · exact telling.stops ahead failed
    · exact (tellingNext a).stops ((goes.succeeds begun).suffix.trans ahead) ended

theorem pure (a : α) : Telling tokens bindings (pure a : Scan α) where
  stops _ stops := by cases stops

theorem expect (kind : Kind) {context : Text} (worded : Worded tokens context) :
    Telling tokens bindings (expect kind context) where
  stops ahead stops := by
    obtain ⟨rfl, rfl⟩ := expect_eq_error stops
    exact Stop.tells_head ahead (worded.expected kind)

end Scan.Telling

namespace Expression

open Scan (GoesAhead Telling)

variable {depth : Nat} {group operand : Scan Value}

/-- A longer chain that stops at its last sign tells why. -/
theorem tells_of_sign {level : Level} {sign : Sign level} {init : Expr (.chain level)}
    {last : Expr level.operand} {left right : Value} {error : OperationError}
    {front spelling : List Token} (parts : tokens = front ++ spelling ++ rest)
    (spelled : Spells spelling (Expr.extend init sign last).symbols)
    (valued : init.value bindings = .ok left) (valuedLast : last.value bindings = .ok right)
    (applied : sign.apply left right = .error error) :
    Stop.Tells tokens bindings rest (.ofOperation error) := by
  by_cases finite : error = .infiniteDividend
  · subst finite
    have stuck : (Expr.extend init sign last).value bindings = .error .undefinedRemainder := by
      simp only [Expr.value, valued, valuedLast, bind, Except.bind, applied, operationValue]
      rfl
    cases sign with
    | mod =>
        obtain ⟨-, ⟨x, rfl, infinite⟩, divides⟩ :=
          ArithmeticOp.eq_mod_of_infiniteDividend applied
        exact ⟨front, spelling, init, last, x, right, parts, spelled, valued, infinite,
          valuedLast, divides, stuck⟩
    | divide | power | plus | minus =>
        obtain ⟨isMod, -⟩ := ArithmeticOp.eq_mod_of_infiniteDividend applied
        cases isMod
    | and | andAnd | or | orOr =>
        exact absurd applied (LogicalOp.apply_ne_infiniteDividend _ _ _)
  · exact Stop.tells_ofOperation finite

/-- A chain that goes on from a spelled tree tells why it stops. -/
theorem chainFrom_telling {level : Level} (sound : Sound bindings level.operand depth operand)
    (telling : Telling tokens bindings operand) :
    ∀ (bound : List Token) {left : Value} {cursor after : Cursor} {reason : Stop}
      {front spelling : List Token}
      (init : Expr (.chain level)), tokens = front ++ spelling ++ cursor.rest →
      Spells spelling init.symbols →
      init.value bindings = .ok left → chainFrom level.operator? operand bound left cursor =
        .error reason after →
      Stop.Tells tokens bindings after.rest reason
  | [], _, _, _, _, _, _, _, _, _, _, stops => by cases stops
  | _ :: bound, left, cursor, after, reason, front, spelling, init, parts, spelled,
    valued, stops => by
      rcases bind_eq_error.mp stops with failed | ⟨found, signed, looked, continues⟩
      · exact absurd failed operator?_ne_error
      · rcases operator?_eq_ok looked with
          ⟨rfl, rfl, -⟩ | ⟨operator, token, rfl, known, signParts, -⟩
        · cases continues
        · have ahead : signed.rest <:+ tokens :=
            ⟨front ++ spelling ++ [token], by rw [parts, signParts]; simp⟩
          rcases bind_eq_error.mp continues with failed | ⟨right, middle, evaluated, operates⟩
          · exact telling.stops ahead failed
          · obtain ⟨sign, signKind, rfl⟩ := Level.exists_sign known
            obtain ⟨last, more, spelledLast, -, valuedLast, read, -, -⟩ := sound _ _ _ evaluated
            have longer : tokens = front ++ (spelling ++ token :: more) ++ middle.rest := by
              rw [parts, signParts, read]
              simp
            have spelledLonger :
                Spells (spelling ++ token :: more) (Expr.extend init sign last).symbols :=
              spelled.append
                (Spells.cons_iff.mpr ⟨token, more, rfl, sign.symbol_eq signKind, spelledLast⟩)
            rcases bind_eq_error.mp operates with failed | ⟨value, _, operated, chained⟩
            · obtain ⟨error, applied, rfl, rfl⟩ := operate_eq_error failed
              exact tells_of_sign longer spelledLonger valued valuedLast applied
            · obtain ⟨applied, rfl⟩ := operate_eq_ok operated
              have valuedLonger : (Expr.extend init sign last).value bindings = .ok value := by
                simp only [Expr.value, valued, valuedLast, bind, Except.bind, applied,
                  operationValue]
              exact chainFrom_telling sound telling bound _ longer spelledLonger
                valuedLonger chained

theorem chain_telling {level : Level} (sound : Sound bindings level.operand depth operand)
    (telling : Telling tokens bindings operand) :
    Telling tokens bindings (chain level.operator? operand) := by
  refine ⟨fun {cursor reason after} ahead stops => ?_⟩
  rcases bind_eq_error.mp stops with failed | ⟨left, middle, evaluated, chained⟩
  · exact telling.stops ahead failed
  · obtain ⟨first, spelling, spelled, -, valued, read, -, -⟩ := sound _ _ _ evaluated
    obtain ⟨front, parts⟩ := ahead
    have located : tokens = front ++ spelling ++ middle.rest := by
      rw [← parts, read, List.append_assoc]
    exact chainFrom_telling sound telling middle.rest (.single first) located spelled
      valued chained

theorem compared_telling (goes : GoesAhead operand)
    (telling : Telling tokens bindings operand) :
    Telling tokens bindings (compared operand) := by
  refine telling.bind goes fun left => ⟨fun {cursor reason after} ahead stops => ?_⟩
  rcases bind_eq_error.mp stops with failed | ⟨found, signed, looked, continues⟩
  · exact absurd failed operator?_ne_error
  · have aheadSigned := ((operator?_goesAhead _).succeeds looked).suffix.trans ahead
    rcases operator?_eq_ok looked with ⟨rfl, rfl, -⟩ | ⟨operator, token, rfl, known, -, -⟩
    · cases continues
    · obtain ⟨op, -, rfl⟩ := ComparisonOp.exists_of_operator? known
      rcases bind_eq_error.mp continues with failed | ⟨right, middle, -, operated⟩
      · exact telling.stops aheadSigned failed
      · obtain ⟨error, applied, rfl, rfl⟩ := operate_eq_error operated
        refine Stop.tells_ofOperation ?_
        rintro rfl
        exact op.apply_ne_infiniteDividend _ _ applied

theorem primary_telling (goes : GoesAhead group) (telling : Telling tokens bindings group) :
    Telling tokens bindings (primary bindings group) := by
  have grouped : Telling tokens bindings (do
      let value ← group
      let _ ← Scan.expect .groupClose "to close parenthesized expression"
      pure value) :=
    telling.bind goes fun value => (Telling.expect _ (.words _)).bind (.expect _ _)
      fun _ => .pure value
  refine ⟨fun {cursor reason after} ahead stops => ?_⟩
  obtain ⟨last, rest⟩ := cursor
  cases rest with
  | nil =>
      cases stops
      exact ⟨.words _, rfl⟩
  | cons token rest =>
      have member : token ∈ tokens := ahead.subset List.mem_cons_self
      simp only [primary] at stops
      split at stops
      · cases stops
      · split at stops
        · cases stops
        · cases stops
          exact (Worded.words _).append (.lexeme member)
      · exact grouped.stops ((List.suffix_cons token rest).trans ahead) stops
      · cases stops
        exact ⟨.words _, member⟩

/-- What holds of groups passes from tier to tier. -/
theorem logical_telling
    (sound : ∀ tier : Tier, Sound bindings tier depth (scanner bindings group tier))
    (goes : GoesAhead group) (telling : Telling tokens bindings group) :
    Telling tokens bindings (logical bindings group) := by
  have primary : Telling tokens bindings (scanner bindings group Level.product.operand) :=
    primary_telling goes telling
  have product : Telling tokens bindings (scanner bindings group Level.sum.operand) :=
    chain_telling (sound _) primary
  have sum : Telling tokens bindings (additive bindings group) :=
    chain_telling (sound _) product
  have comparison : Telling tokens bindings (scanner bindings group Level.logic.operand) :=
    compared_telling (scanner_goesAhead goes (.chain .sum)) sum
  exact chain_telling (sound _) comparison

theorem inside_telling (depth : Nat) : Telling tokens bindings (inside bindings depth) := by
  induction depth with
  | zero =>
      refine ⟨fun ahead stops => ?_⟩
      cases stops
      exact Stop.tells_head ahead (.words _)
  | succ depth ih =>
      exact logical_telling (scanner_sound bindings depth) (inside_goesAhead bindings depth) ih

/-- **An evaluation tells why it stops.** -/
theorem evaluate_telling {limit : Nat} : Telling tokens bindings (evaluate limit bindings) :=
  logical_telling (scanner_sound bindings limit) (inside_goesAhead bindings limit)
    (inside_telling limit)

end Expression

end Telling

end ToonScript
