import ToonScript.Value.Arithmetic

/-!
# Comparison and logic

Integers, texts and characters are ordered, texts by their code points; an integer and a double
are compared as doubles, and two truth values only for being equal. The logical operators take
two truth values.
-/

set_option autoImplicit false

namespace ToonScript

/-- Whether an ordering answer satisfies a comparison. -/
def ComparisonOp.holds : ComparisonOp → Ordering → Bool
  | eq, o => o == .eq
  | ne, o => o != .eq
  | lt, o => o == .lt
  | gt, o => o == .gt
  | le, o => o != .gt
  | ge, o => o != .lt

/-- Compares two doubles; nothing but `ne` holds of a NaN. -/
def ComparisonOp.holdsFloat : ComparisonOp → Float → Float → Bool
  | eq, a, b => a == b
  | ne, a, b => !(a == b)
  | lt, a, b => a < b
  | gt, a, b => b < a
  | le, a, b => a ≤ b
  | ge, a, b => b ≤ a

/-- Compares two texts by their code points, the first difference deciding. -/
def compareText (a b : List Point) : Ordering :=
  match a, b with
  | [], [] => .eq
  | [], _ :: _ => .lt
  | _ :: _, [] => .gt
  | c :: a, d :: b => (compare c.code d.code).then (compareText a b)

/-- Applies a comparison operator. -/
def ComparisonOp.apply (op : ComparisonOp) (left right : Value) : Except OperationError Value :=
  match left, right with
  | .int a, .int b => .ok (.boolean (op.holds (compare a.toInt b.toInt)))
  | .int a, .float b => .ok (.boolean (op.holdsFloat (doubleOfInt a) b))
  | .float a, .int b => .ok (.boolean (op.holdsFloat a (doubleOfInt b)))
  | .float a, .float b => .ok (.boolean (op.holdsFloat a b))
  | .string a, .string b => .ok (.boolean (op.holds (compareText a.points b.points)))
  | .char a, .char b => .ok (.boolean (op.holds (compare a.code b.code)))
  | .boolean a, .boolean b =>
    match op with
    | .eq => .ok (.boolean (a == b))
    | .ne => .ok (.boolean (a != b))
    | op => .error (.operands op.symbol .boolean .boolean)
  | l, r => .error (.operands op.symbol l.ty r.ty)

/-- Applies a logical operator to two values that are both known already. -/
def LogicalOp.apply (op : LogicalOp) (left right : Value) : Except OperationError Value :=
  match op, left, right with
  | .and, .boolean a, .boolean b => .ok (.boolean (a && b))
  | .or, .boolean a, .boolean b => .ok (.boolean (a || b))
  | op, l, r => .error (.notTruthValues op.symbol l.ty r.ty)

/-- Applies the comparison operator that a text names. -/
def Value.comparison (symbol : String) (left right : Value) : Except OperationError Value :=
  match ComparisonOp.all.find? fun op => op.symbol == symbol with
  | some op => op.apply left right
  | none => .error (.unknownComparison symbol)

/-- Applies the logical operator that a text names. The operands are looked at before the
operator. -/
def Value.logical (symbol : String) (left right : Value) : Except OperationError Value :=
  match LogicalOp.all.find? fun op => op.symbol == symbol with
  | some op => op.apply left right
  | none =>
    match left, right with
    | .boolean _, .boolean _ => .error (.unknownLogical symbol)
    | l, r => .error (.notTruthValues symbol l.ty r.ty)

end ToonScript
