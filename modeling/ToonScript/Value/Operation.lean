import ToonScript.Value.Basic

/-!
# Operators

The three families of operators with the signs that name them in messages, and the reasons for
which an operator gives no value. An infinite dividend of a remainder is the one reason that is
no failure of a program.
-/

set_option autoImplicit false

namespace ToonScript

/-- The arithmetic operators. -/
inductive ArithmeticOp where
  | add | sub | div | mod | pow
deriving DecidableEq, Repr

/-- The comparison operators. -/
inductive ComparisonOp where
  | eq | ne | lt | gt | le | ge
deriving DecidableEq, Repr

/-- The logical operators. -/
inductive LogicalOp where
  | and | or
deriving DecidableEq, Repr

namespace ArithmeticOp

/-- All arithmetic operators. -/
def all : List ArithmeticOp := [add, sub, div, mod, pow]

/-- How an arithmetic operator is named in messages. -/
def symbol : ArithmeticOp → String
  | add => "+"
  | sub => "-"
  | div => "/"
  | mod => "%"
  | pow => "^"

end ArithmeticOp

namespace ComparisonOp

/-- All comparison operators. -/
def all : List ComparisonOp := [eq, ne, lt, gt, le, ge]

/-- How a comparison operator is named in messages. -/
def symbol : ComparisonOp → String
  | eq => "=="
  | ne => "!="
  | lt => "<"
  | gt => ">"
  | le => "<="
  | ge => ">="

end ComparisonOp

namespace LogicalOp

/-- All logical operators. -/
def all : List LogicalOp := [and, or]

/-- How a logical operator is named in messages. -/
def symbol : LogicalOp → String
  | and => "and"
  | or => "or"

end LogicalOp

/-- Why an operator gives no value. An infinite dividend is one of a remainder. -/
inductive OperationError where
  | operands (symbol : String) (left right : Ty)
  | unknownComparison (symbol : String)
  | notTruthValues (symbol : String) (left right : Ty)
  | unknownLogical (symbol : String)
  | divisionByZero
  | moduloByZero
  | infiniteDividend
deriving DecidableEq, Repr

/-- The message of an operation error. -/
def OperationError.message : OperationError → String
  | operands symbol left right =>
    s!"unsupported operand types for '{symbol}': {left.name} and {right.name}"
  | unknownComparison symbol => s!"unknown comparison operator {symbol}"
  | notTruthValues symbol left right =>
    s!"logical operator '{symbol}' expects BOOLEAN operands, got {left.name} and {right.name}"
  | unknownLogical symbol => s!"unknown logical operator {symbol}"
  | divisionByZero => "division by zero"
  | moduloByZero => "modulo by zero"
  | infiniteDividend => "math domain error"

end ToonScript
