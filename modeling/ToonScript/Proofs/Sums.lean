import ToonScript.Proofs.Grammar
import ToonScript.Proofs.IntegerArithmetic

/-!
# Sums wrap around once

A sum of integers is evaluated from the left, and every operator wraps its result around into
the 64-bit range. The exact sum is never computed. Here it is shown that this does not matter:
the value of a sum is the exact sum, wrapped around once (`Expression.evaluate_wraps_once`).
Sums may overflow on the way, in any order and any grouping of their operands, and come back.

`Expr.Totals` tells which trees are sums and what they add up to, with integers of any size. The
argument is that wrapping around is a homomorphism, which is how 64-bit addition and subtraction
are tied to the exact ones (`Expr.Totals.value`).
-/

set_option autoImplicit false

namespace ToonScript

/-- A tree is a sum of integers: of literals, of variables that hold integers, and of groups,
with plus and minus between them. The total is the exact one, from the left. -/
inductive Expr.Totals (bindings : Bindings) : {tier : Tier} → Expr tier → Int → Prop where
  | literal (n : Int64) : Totals bindings (.literal (.int n)) n.toInt
  | var {name : Text} {n : Int64} (bound : bindings.get? name = some (.int n)) :
      Totals bindings (.var name) n.toInt
  | group {body : Formula} {total : Int} (inner : Totals bindings body total) :
      Totals bindings (.group body) total
  | single {level : Level} {operand : Expr level.operand} {total : Int}
      (inner : Totals bindings operand total) :
      Totals bindings (.single operand) total
  | plus {init : Expr (.chain .sum)} {operand : Expr (.chain .product)} {left right : Int}
      (first : Totals bindings init left) (last : Totals bindings operand right) :
      Totals bindings (.extend init .plus operand) (left + right)
  | minus {init : Expr (.chain .sum)} {operand : Expr (.chain .product)} {left right : Int}
      (first : Totals bindings init left) (last : Totals bindings operand right) :
      Totals bindings (.extend init .minus operand) (left - right)
  | uncompared {sum : Expr (.chain .sum)} {total : Int} (inner : Totals bindings sum total) :
      Totals bindings (.uncompared sum) total

/-- A chain whose two parts have values applies its last sign to them. -/
theorem Expr.value_extend {bindings : Bindings} {level : Level} {init : Expr (.chain level)}
    {sign : Sign level} {operand : Expr level.operand} {left right : Value}
    (first : init.value bindings = .ok left) (last : operand.value bindings = .ok right) :
    (Expr.extend init sign operand).value bindings =
      operationValue (sign.apply left right) := by
  rw [Expr.value, first, last]
  rfl

theorem integerArithmetic_add (a b : Int64) :
    integerArithmetic .add a.toInt b.toInt = .ok (.int (a + b)) := by
  rw [integerArithmetic, Value.ofInt_eq, Int64.ofInt_add, Int64.ofInt_toInt, Int64.ofInt_toInt]

theorem integerArithmetic_sub (a b : Int64) :
    integerArithmetic .sub a.toInt b.toInt = .ok (.int (a - b)) := by
  rw [integerArithmetic, Value.ofInt_eq, Int64.ofInt_sub, Int64.ofInt_toInt, Int64.ofInt_toInt]

/-- The value of a sum is its total, wrapped around. -/
theorem Expr.Totals.value {bindings : Bindings} {tier : Tier} {expr : Expr tier} {total : Int}
    (totals : expr.Totals bindings total) :
    expr.value bindings = .ok (.int (Int64.ofInt total)) := by
  induction totals with
  | literal n => rw [Expr.value, Int64.ofInt_toInt]
  | var bound => simp only [Expr.value, bound, Int64.ofInt_toInt]
  | group _ ih | single _ ih | uncompared _ ih => exact ih
  | plus _ _ ihFirst ihLast =>
      rw [Int64.ofInt_add, Expr.value_extend ihFirst ihLast]
      exact congrArg operationValue (integerArithmetic_add _ _)
  | minus _ _ ihFirst ihLast =>
      rw [Int64.ofInt_sub, Expr.value_extend ihFirst ihLast]
      exact congrArg operationValue (integerArithmetic_sub _ _)

namespace Expression

variable {tokens : List Token} {start stop : Nat}

/-- **Sums wrap around once.** In front of tokens that derive a sum of integers from the
grammar, with no operator behind them and with groups nested no deeper than the limit,
evaluation gives the exact total, wrapped around once, right behind these tokens. -/
theorem evaluate_wraps_once (limit : Nat) {bindings : Bindings}
    {formula : Formula} {total : Int} (ordered : start ≤ stop) (inside : stop ≤ tokens.length)
    (derived : Derives (tokens.extract start stop) formula)
    (sum : formula.Totals bindings total) (shallow : formula.nesting ≤ limit)
    (ends : ∀ token, tokens[stop]? = some token → token.kind.isOperator = false) :
    ∃ n : Int64, evaluate limit bindings (.atIndex tokens start) =
      .ok (.int n) (.atIndex tokens stop) ∧ n.toInt = wrap total := by
  have leads := evaluate_of_derives bindings ordered derived inside shallow ends
  rw [sum.value] at leads
  exact ⟨Int64.ofInt total, leads, toInt_ofInt_eq_wrap total⟩

/-- `x + x - (x + 2)`, which leaves the range at its first sign and again in the group. -/
def overflowingSum : Formula :=
  let operand (primary : Expr .primary) : Expr (.chain .product) := .single primary
  .single (.uncompared
    (.extend (.extend (.single (operand (.var "x"))) .plus (operand (.var "x"))) .minus
    (operand (.group (.single (.uncompared (.extend (.single (operand (.var "x"))) .plus
      (operand (.literal (.int 2))))))))))

/-- With `x` being the greatest integer, the sum overflows twice and comes back to `x - 2`. -/
theorem evaluate_wraps_once_overflowing :
    wrap (greatestInt + greatestInt) ≠ greatestInt + greatestInt ∧
    ∃ n : Int64,
      evaluate 200 [("x", .int Int64.maxValue)] (.atIndex (markedTokens overflowingSum) 1) =
      .ok (.int n) (.atIndex (markedTokens overflowingSum) 10) ∧ n.toInt = greatestInt - 2 := by
  have derived : Derives ((markedTokens overflowingSum).extract 1 10) overflowingSum :=
    Spells.derives _ (by decide +kernel)
  have x : Expr.Totals [("x", .int Int64.maxValue)]
    (.single (.var "x") : Expr (.chain .product)) _ :=
    .single (.var (n := Int64.maxValue) rfl)
  have sum : overflowingSum.Totals [("x", .int Int64.maxValue)] _ :=
    .single (.uncompared (.minus (.plus (.single x) x)
      (.single (.group (.single (.uncompared (.plus (.single x) (.single (.literal 2)))))))))
  obtain ⟨n, evaluated, total⟩ :=
    evaluate_wraps_once 200 (by decide) (by decide) derived sum (by decide) (by decide +kernel)
  exact ⟨by decide, n, evaluated, total⟩

end Expression

end ToonScript
