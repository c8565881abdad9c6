import ToonScript.Environment
import ToonScript.Machine.Cursor
import ToonScript.Value.Comparison

/-!
# Expressions

An expression is evaluated while it is read. From the tightest level to the loosest: literals,
variables and groups; chains of division, remainder and power, all alike and from the left;
chains of addition and subtraction; at most one comparison; chains of the logical operators,
where both operands are always evaluated. Evaluation moves the cursor and changes nothing else.

A group holds an expression again. How deep groups may be nested is for the host to say, and its
limit is the measure of the recursion. A chain is bounded by the tokens ahead of it, because
every further operator is one of them.
-/

set_option autoImplicit false

namespace ToonScript

open Token (Kind)

namespace Expression

/-- An operator that waits for its two operands. -/
abbrev Operator := Value → Value → Except OperationError Value

/-- The operators that bind tightest. -/
def multiplicativeOperator? : Kind → Option Operator
  | .divide => some ArithmeticOp.div.apply
  | .mod => some ArithmeticOp.mod.apply
  | .power => some ArithmeticOp.pow.apply
  | _ => none

/-- The operators of a sum. -/
def additiveOperator? : Kind → Option Operator
  | .plus => some ArithmeticOp.add.apply
  | .minus => some ArithmeticOp.sub.apply
  | _ => none

/-- The comparison operators. -/
def comparisonOperator? : Kind → Option Operator
  | .equal => some ComparisonOp.eq.apply
  | .notEqual => some ComparisonOp.ne.apply
  | .lessThan => some ComparisonOp.lt.apply
  | .greaterThan => some ComparisonOp.gt.apply
  | .lessEqual => some ComparisonOp.le.apply
  | .greaterEqual => some ComparisonOp.ge.apply
  | _ => none

/-- The logical operators, each of which has two spellings. -/
def logicalOperator? : Kind → Option Operator
  | .and | .andAnd => some LogicalOp.and.apply
  | .or | .orOr => some LogicalOp.or.apply
  | _ => none

/-- Takes the value of an operation, or stops as the operation says. -/
def operate (result : Except OperationError Value) : Scan Value :=
  match result with
  | .ok value => pure value
  | .error error => throw (.ofOperation error)

/-- Passes the next token if it is an operator of a level. -/
def operator? (level : Kind → Option Operator) : Scan (Option Operator) := fun cursor =>
  match cursor.rest with
  | token :: rest =>
    match level token.kind with
    | some operator => .ok (some operator) ⟨some token, rest⟩
    | none => .ok none cursor
  | [] => .ok none cursor

/-- Continues a chain whose value so far is `left`. The list bounds the number of operators. -/
def chainFrom (level : Kind → Option Operator) (operand : Scan Value) :
    List Token → Value → Scan Value
  | [], left => pure left
  | _ :: ahead, left => do
    match ← operator? level with
    | none => pure left
    | some operator =>
      let right ← operand
      let value ← operate (operator left right)
      chainFrom level operand ahead value

/-- A chain of operands with operators of one level between them, computed from the left. -/
def chain (level : Kind → Option Operator) (operand : Scan Value) : Scan Value := do
  let left ← operand
  chainFrom level operand (← get).rest left

/-- An operand, or a comparison of two. -/
def compared (operand : Scan Value) : Scan Value := do
  let left ← operand
  match ← operator? comparisonOperator? with
  | none => pure left
  | some operator =>
    let right ← operand
    operate (operator left right)

/-- A literal, a variable or a group; `group` evaluates what stands inside a group. -/
def primary (bindings : Bindings) (group : Scan Value) : Scan Value := fun cursor =>
  match cursor.rest with
  | [] => Scan.fail (.structural .endOfExpression none) cursor
  | token :: rest =>
    let after : Cursor := ⟨some token, rest⟩
    match token.literal, token.kind with
    | some value, _ => .ok value after
    | none, .identifier =>
      match bindings.get? token.lexeme with
      | some value => .ok value after
      | none => Scan.fail (.undefined token.lexeme) after
    | none, .groupOpen =>
      (do
        let value ← group
        let _ ← Scan.expect .groupClose "to close parenthesized expression"
        pure value : Scan Value) after
    | none, _ => Scan.fail (.structural .unexpectedToken (some token)) cursor

/-- A chain of the tightest operators. -/
def multiplicative (bindings : Bindings) (group : Scan Value) : Scan Value :=
  chain multiplicativeOperator? (primary bindings group)

/-- A sum. -/
def additive (bindings : Bindings) (group : Scan Value) : Scan Value :=
  chain additiveOperator? (multiplicative bindings group)

/-- A sum or a comparison of two sums. -/
def comparison (bindings : Bindings) (group : Scan Value) : Scan Value :=
  compared (additive bindings group)

/-- An expression, where `group` evaluates what stands inside a group. -/
def logical (bindings : Bindings) (group : Scan Value) : Scan Value :=
  chain logicalOperator? (comparison bindings group)

/-- What stands inside a group, when groups may still be nested `depth` deep, this one included.
-/
def inside (bindings : Bindings) : Nat → Scan Value
  | 0 => fun cursor => Scan.fail (.structural .nestedTooDeeply cursor.rest.head?) cursor
  | depth + 1 => logical bindings (inside bindings depth)

/-- The expression at the cursor, with groups nested no deeper than a limit. -/
def evaluate (limit : Nat) (bindings : Bindings) : Scan Value :=
  logical bindings (inside bindings limit)

end Expression

end ToonScript
