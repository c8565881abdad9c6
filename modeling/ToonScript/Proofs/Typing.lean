import ToonScript.Proofs.Evaluation
import ToonScript.Token.Lexer

/-!
# The types of expressions do not depend on data

Whether an operator applies to its operands, and the type of what it gives, is a matter of the
types of the operands alone. Each family of operators has a table that says so
(`ArithmeticOp.typing`, `ComparisonOp.typing`, `LogicalOp.typing`), and an operator follows its
table except where it fails on its numbers: where it divides by zero, or takes a remainder of an
infinite dividend.

So two evaluations of the same tokens, with variables of the same types, go in parallel: each
passes the same tokens, meets the same operators with operands of the same types, and fails at
the same place for the same reason. They part only where one of them fails on its numbers
(`Expression.evaluate_parallel`). If none of them does, they come to values of the same type or
to the same failure (`Expression.evaluate_by_types`).
-/

set_option autoImplicit false

namespace ToonScript

open Token (Kind)

/-! ## Tables of types -/

/-- Whether an operator gives no value because of the numbers it got, and not because of their
types. -/
def OperationError.isNumeric : OperationError → Bool
  | divisionByZero | moduloByZero | infiniteDividend => true
  | operands .. | unknownComparison _ | notTruthValues .. | unknownLogical _ => false

/-- The types of the values that arithmetic operators give. -/
def ArithmeticOp.typing : ArithmeticOp → Ty → Ty → Except OperationError Ty
  | add, .string, _ => .ok .string
  | _, .int, .int => .ok .int
  | _, .int, .float | _, .float, .int | _, .float, .float => .ok .float
  | op, left, right => .error (.operands op.symbol left right)

/-- The types of the values that comparison operators give. -/
def ComparisonOp.typing : ComparisonOp → Ty → Ty → Except OperationError Ty
  | _, .int, .int | _, .int, .float | _, .float, .int | _, .float, .float => .ok .boolean
  | _, .string, .string | _, .char, .char => .ok .boolean
  | eq, .boolean, .boolean | ne, .boolean, .boolean => .ok .boolean
  | op, left, right => .error (.operands op.symbol left right)

/-- The types of the values that logical operators give. -/
def LogicalOp.typing : LogicalOp → Ty → Ty → Except OperationError Ty
  | _, .boolean, .boolean => .ok .boolean
  | op, left, right => .error (.notTruthValues op.symbol left right)

/-- The outcome of an operator conforms to an entry of a table: a value has the type, an error
is the error of the entry. An operator that fails on its numbers conforms to any entry. -/
inductive Conforms : Except OperationError Value → Except OperationError Ty → Prop where
  | value {value : Value} {ty : Ty} (typed : value.ty = ty) : Conforms (.ok value) (.ok ty)
  | refused (error : OperationError) : Conforms (.error error) (.error error)
  | numeric {error : OperationError} (numeric : error.isNumeric)
      (entry : Except OperationError Ty) :
      Conforms (.error error) entry

theorem integerArithmetic_conforms (op : ArithmeticOp) (a b : Int) :
    Conforms (integerArithmetic op a b) (.ok .int) := by
  unfold integerArithmetic
  repeat' split
  all_goals first | exact .value rfl | exact .numeric rfl _

theorem floatArithmetic_conforms (op : ArithmeticOp) (a b : Float) :
    Conforms (floatArithmetic op a b) (.ok .float) := by
  unfold floatArithmetic
  repeat' split
  all_goals first | exact .value rfl | exact .numeric rfl _

theorem ArithmeticOp.apply_conforms (op : ArithmeticOp) (left right : Value) :
    Conforms (op.apply left right) (op.typing left.ty right.ty) := by
  have integers : op.typing .int .int = .ok .int := by cases op <;> rfl
  have doubles : op.typing .int .float = .ok .float ∧ op.typing .float .int = .ok .float ∧
      op.typing .float .float = .ok .float := by
    cases op <;> exact ⟨rfl, rfl, rfl⟩
  unfold apply
  split
  · exact .value rfl
  · exact integers ▸ integerArithmetic_conforms op _ _
  · exact doubles.1 ▸ floatArithmetic_conforms op _ _
  · exact doubles.2.1 ▸ floatArithmetic_conforms op _ _
  · exact doubles.2.2 ▸ floatArithmetic_conforms op _ _
  · have entry : op.typing left.ty right.ty =
        .error (.operands op.symbol left.ty right.ty) := by
      cases op <;> cases left <;> cases right <;> first | rfl | simp_all
    exact entry ▸ .refused _

theorem ComparisonOp.apply_conforms (op : ComparisonOp) (left right : Value) :
    Conforms (op.apply left right) (op.typing left.ty right.ty) := by
  cases op <;> cases left <;> cases right
  all_goals first | exact .refused _ | exact .value rfl

theorem LogicalOp.apply_conforms (op : LogicalOp) (left right : Value) :
    Conforms (op.apply left right) (op.typing left.ty right.ty) := by
  cases op <;> cases left <;> cases right
  all_goals first | exact .refused _ | exact .value rfl

/-- An operator has a table of types. -/
def Expression.Tabled (operator : Expression.Operator) : Prop :=
  ∃ typing : Ty → Ty → Except OperationError Ty, ∀ left right : Value,
    Conforms (operator left right) (typing left.ty right.ty)

theorem Sign.apply_tabled {level : Level} (sign : Sign level) :
    Expression.Tabled sign.apply := by
  cases sign with
  | divide | mod | power | plus | minus => exact ⟨_, ArithmeticOp.apply_conforms _⟩
  | and | andAnd | or | orOr => exact ⟨_, LogicalOp.apply_conforms _⟩

theorem Level.tabled {level : Level} {kind : Kind} {operator : Expression.Operator}
    (known : level.operator? kind = some operator) : Expression.Tabled operator := by
  obtain ⟨sign, -, rfl⟩ := Level.exists_sign known
  exact sign.apply_tabled

theorem ComparisonOp.tabled {kind : Kind} {operator : Expression.Operator}
    (known : Expression.comparisonOperator? kind = some operator) :
    Expression.Tabled operator := by
  obtain ⟨op, -, rfl⟩ := ComparisonOp.exists_of_operator? known
  exact ⟨_, op.apply_conforms⟩

/-! ## Computations in parallel -/

/-- Whether a computation stops on its numbers: it divides by zero, or asks for a remainder that
is not defined. -/
def Stop.isNumeric : Stop → Bool
  | failure cause => cause.category == .division
  | undefinedRemainder => true
  | outOfSteps => false

theorem Stop.isNumeric_ofOperation (error : OperationError) :
    (Stop.ofOperation error).isNumeric = error.isNumeric := by
  cases error <;> rfl

/-- The same names are bound, to values of the same types. -/
def Bindings.SameTypes (bindings bindings' : Bindings) : Prop :=
  ∀ name, (bindings.get? name).map Value.ty = (bindings'.get? name).map Value.ty

/-- A name is bound on neither side, or to values of the same type. -/
theorem Bindings.SameTypes.get? {bindings bindings' : Bindings}
    (sameTypes : bindings.SameTypes bindings') (name : Text) :
    (bindings.get? name = none ∧ bindings'.get? name = none) ∨
      ∃ value value', bindings.get? name = some value ∧ bindings'.get? name = some value' ∧
        value.ty = value'.ty := by
  have typed := sameTypes name
  cases bound : bindings.get? name with
  | none =>
      rw [bound, Option.map_none] at typed
      exact .inl ⟨rfl, Option.map_eq_none_iff.mp typed.symm⟩
  | some value =>
      rw [bound, Option.map_some] at typed
      obtain ⟨value', bound', same⟩ := Option.map_eq_some_iff.mp typed.symm
      exact .inr ⟨value, value', rfl, bound', same.symm⟩

/-- Two results are abreast: both are values that are alike, or both are the same failure, at
the same place. Nothing is said where one of them has stopped on its numbers. -/
inductive Abreast {α : Type} (alike : α → α → Prop) :
    EStateM.Result Stop Cursor α → EStateM.Result Stop Cursor α → Prop where
  | ok {a a' : α} (after : Cursor) (related : alike a a') :
      Abreast alike (.ok a after) (.ok a' after)
  | failed (cause : Failure) (after : Cursor) :
      Abreast alike (.error (.failure cause) after) (.error (.failure cause) after)
  | numeric {stop : Stop} (numeric : stop.isNumeric) (after : Cursor)
      (other : EStateM.Result Stop Cursor α) :
      Abreast alike (.error stop after) other
  | numericOther {stop : Stop} (numeric : stop.isNumeric) (after : Cursor)
      (result : EStateM.Result Stop Cursor α) :
      Abreast alike result (.error stop after)

/-- Two scans that are abreast wherever they start. -/
def Scan.Parallel {α : Type} (alike : α → α → Prop) (scan scan' : Scan α) : Prop :=
  ∀ cursor, Abreast alike (scan cursor) (scan' cursor)

namespace Scan.Parallel

variable {α β : Type} {alike : α → α → Prop} {alikeNext : β → β → Prop}

theorem pure {a a' : α} (related : alike a a') : Parallel alike (pure a) (pure a') :=
  fun cursor => .ok cursor related

theorem bind {first first' : Scan α} {next next' : α → Scan β}
    (begun : Parallel alike first first')
    (continued : ∀ a a', alike a a' → Parallel alikeNext (next a) (next' a')) :
    Parallel alikeNext (first >>= next) (first' >>= next') := by
  intro cursor
  have abreast := begun cursor
  cases result : first cursor with
  | ok a middle =>
      cases result' : first' cursor with
      | ok a' middle' =>
          rw [result, result'] at abreast
          cases abreast with
          | ok _ related =>
              rw [bind_of_ok result, bind_of_ok result']
              exact continued a a' related middle
      | error stop' middle' =>
          rw [result, result'] at abreast
          cases abreast with
          | numericOther numeric =>
              rw [bind_of_error result']
              exact .numericOther numeric _ _
  | error stop middle =>
      cases result' : first' cursor with
      | ok a' middle' =>
          rw [result, result'] at abreast
          cases abreast with
          | numeric numeric =>
              rw [bind_of_error result]
              exact .numeric numeric _ _
      | error stop' middle' =>
          rw [result, result'] at abreast
          rw [bind_of_error result, bind_of_error result']
          cases abreast with
          | failed cause => exact .failed cause _
          | numeric numeric => exact .numeric numeric _ _
          | numericOther numeric => exact .numericOther numeric _ _

theorem get : Parallel Eq (get : Scan Cursor) get := fun cursor => .ok cursor rfl

theorem expect (kind : Kind) (context : Text) :
    Parallel Eq (expect kind context) (expect kind context) := by
  intro cursor
  simp only [Scan.expect]
  repeat' split
  · exact .ok _ rfl
  · exact .failed _ _
  · exact .failed _ _

end Scan.Parallel

/-! ## Evaluation in parallel -/

namespace Expression

open Scan (Parallel)

/-- Values of the same type. -/
def SameType (value value' : Value) : Prop := value.ty = value'.ty

/-- Two outcomes that conform to the same entry of a table. -/
theorem operate_parallel {result result' : Except OperationError Value}
    {entry : Except OperationError Ty} (conforms : Conforms result entry)
    (conforms' : Conforms result' entry) :
    Parallel SameType (operate result) (operate result') := by
  intro cursor
  cases conforms with
  | value typed =>
      cases conforms' with
      | value typed' => exact .ok cursor (typed.trans typed'.symm)
      | numeric numeric => exact .numericOther (numeric ▸ Stop.isNumeric_ofOperation _) _ _
  | refused error =>
      cases conforms' with
      | refused =>
          -- Each error is a failure of the program, but one.
          cases error with
          | infiniteDividend => exact .numeric rfl _ _
          | operands | unknownComparison | notTruthValues | unknownLogical | divisionByZero
            | moduloByZero =>
              exact .failed _ _
      | numeric numeric => exact .numericOther (numeric ▸ Stop.isNumeric_ofOperation _) _ _
  | numeric numeric => exact .numeric (numeric ▸ Stop.isNumeric_ofOperation _) _ _

/-- An operator with a table, applied to operands of the same types. -/
theorem Tabled.operate_parallel {operator : Operator} (tabled : Tabled operator)
    {left left' right right' : Value} (typed : SameType left left')
    (typedRight : SameType right right') :
    Parallel SameType (operate (operator left right)) (operate (operator left' right')) := by
  obtain ⟨typing, conforms⟩ := tabled
  refine Expression.operate_parallel (conforms left right) ?_
  rw [typed, typedRight]
  exact conforms left' right'

/-- Two scans that look for an operator pass the same one. -/
theorem operator?_parallel {table : Kind → Option Operator}
    (tabled : ∀ {kind operator}, table kind = some operator → Tabled operator) :
    Parallel (fun found found' => found = found' ∧ ∀ operator, found = some operator →
      Tabled operator) (operator? table) (operator? table) := by
  intro cursor
  obtain ⟨last, rest⟩ := cursor
  have nothing : ∀ operator : Operator, none = some operator → Tabled operator := by
    intro operator found
    cases found
  cases rest with
  | nil => exact .ok _ ⟨rfl, nothing⟩
  | cons token rest =>
      simp only [operator?]
      split
      · next known =>
          refine .ok _ ⟨rfl, fun operator found => ?_⟩
          cases found
          exact tabled known
      · exact .ok _ ⟨rfl, nothing⟩

section Levels

variable {operand operand' : Scan Value}

/-- Two chains go on in parallel. The induction is on the list that bounds the number of
operators, which is the same for both because both stand at the same place. -/
theorem chainFrom_parallel (level : Level) (operands : Parallel SameType operand operand')
    (ahead : List Token) {left left' : Value} (typed : SameType left left') :
    Parallel SameType (chainFrom level.operator? operand ahead left)
      (chainFrom level.operator? operand' ahead left') := by
  induction ahead generalizing left left' with
  | nil => exact .pure typed
  | cons token ahead ih =>
      refine (operator?_parallel Level.tabled).bind ?_
      rintro found _ ⟨rfl, tabled⟩
      cases found with
      | none => exact .pure typed
      | some operator =>
          refine operands.bind fun right right' typedRight => ?_
          exact ((tabled operator rfl).operate_parallel typed typedRight).bind
            fun _ _ typedNext => ih typedNext

theorem chain_parallel (level : Level) (operands : Parallel SameType operand operand') :
    Parallel SameType (chain level.operator? operand) (chain level.operator? operand') := by
  refine operands.bind fun left left' typed => Parallel.get.bind ?_
  rintro cursor _ rfl
  exact chainFrom_parallel level operands cursor.rest typed

theorem compared_parallel (operands : Parallel SameType operand operand') :
    Parallel SameType (compared operand) (compared operand') := by
  refine operands.bind fun left left' typed => (operator?_parallel ComparisonOp.tabled).bind ?_
  rintro found _ ⟨rfl, tabled⟩
  cases found with
  | none => exact .pure typed
  | some operator =>
      exact operands.bind fun right right' typedRight =>
        (tabled operator rfl).operate_parallel typed typedRight

end Levels

section Environments

variable {bindings bindings' : Bindings} {group group' : Scan Value}

theorem primary_parallel (sameTypes : bindings.SameTypes bindings')
    (groups : Parallel SameType group group') :
    Parallel SameType (primary bindings group) (primary bindings' group') := by
  intro cursor
  obtain ⟨last, rest⟩ := cursor
  cases rest with
  | nil => exact .failed _ _
  | cons token rest =>
      simp only [primary]
      split
      · exact .ok _ rfl
      · rcases sameTypes.get? token.lexeme with
          ⟨unbound, unbound'⟩ | ⟨value, value', bound, bound', typed⟩
        · rw [unbound, unbound']
          exact .failed _ _
        · rw [bound, bound']
          exact .ok _ typed
      · have grouped := groups.bind fun value value' typed =>
          (Parallel.expect .groupClose "to close parenthesized expression").bind fun _ _ _ =>
            Parallel.pure typed
        exact grouped _
      · exact .failed _ _

theorem logical_parallel (sameTypes : bindings.SameTypes bindings')
    (groups : Parallel SameType group group') :
    Parallel SameType (logical bindings group) (logical bindings' group') :=
  chain_parallel .logic (compared_parallel (chain_parallel .sum (chain_parallel .product
    (primary_parallel sameTypes groups))))

theorem inside_parallel (sameTypes : bindings.SameTypes bindings') (depth : Nat) :
    Parallel SameType (inside bindings depth) (inside bindings' depth) := by
  induction depth with
  | zero => exact fun cursor => .failed _ _
  | succ depth ih => exact logical_parallel sameTypes ih

/-- Two evaluations with variables of the same types are abreast. -/
theorem evaluate_parallel (limit : Nat) (sameTypes : bindings.SameTypes bindings') :
    Parallel SameType (evaluate limit bindings) (evaluate limit bindings') :=
  logical_parallel sameTypes (inside_parallel sameTypes limit)

/-- **The type of an expression does not depend on data.** Evaluate the same tokens, from the
same place, in two environments that bind the same names to values of the same types. If neither
evaluation divides by zero or asks for a remainder that is not defined, then both give values of
the same type and stop at the same place, or both fail with the same failure. -/
theorem evaluate_by_types (limit : Nat) (sameTypes : bindings.SameTypes bindings')
    (cursor : Cursor)
    (defined : ∀ stop after, evaluate limit bindings cursor = .error stop after →
      stop.isNumeric = false)
    (defined' : ∀ stop after, evaluate limit bindings' cursor = .error stop after →
      stop.isNumeric = false) :
    (∃ value value' after, evaluate limit bindings cursor = .ok value after ∧
      evaluate limit bindings' cursor = .ok value' after ∧
      value.ty = value'.ty) ∨
    ∃ cause after, evaluate limit bindings cursor = .error (.failure cause) after ∧
      evaluate limit bindings' cursor = .error (.failure cause) after := by
  have abreast := evaluate_parallel limit sameTypes cursor
  generalize evaluate limit bindings cursor = result at abreast defined ⊢
  generalize evaluate limit bindings' cursor = result' at abreast defined' ⊢
  cases abreast with
  | ok after typed => exact .inl ⟨_, _, after, rfl, rfl, typed⟩
  | failed cause after => exact .inr ⟨cause, after, rfl, rfl⟩
  | numeric numeric => exact absurd numeric (by simp [defined _ _ rfl])
  | numericOther numeric => exact absurd numeric (by simp [defined' _ _ rfl])

end Environments

/-- A few apples for everyone. -/
def fewApples : Bindings := [("n", .int 7), ("each", .int 2), ("fruit", .string "apple")]

/-- The same names and types in another order. -/
def manyApples : Bindings := [("fruit", .string "apples"), ("n", .int (-9)), ("each", .int 5)]

/-- Whether some are left over. -/
def leftOver : List Token := Token.ofSource "n % each :- 0"

/-- A text that is added to a number. -/
def labelled : List Token := Token.ofSource "n % each ._. fruit )"

/-- A remainder is compared with zero: the two answers differ, and both are truth values. And a
text is added to the remainder, which is refused for the same reason. -/
theorem evaluate_by_types_apples :
    (∃ value value' after, evaluate 200 fewApples (.start leftOver) = .ok value after ∧
      evaluate 200 manyApples (.start leftOver) = .ok value' after ∧ value ≠ value' ∧
      value.ty = value'.ty) ∧
    ∃ cause after, evaluate 200 fewApples (.start labelled) = .error (.failure cause) after ∧
      evaluate 200 manyApples (.start labelled) = .error (.failure cause) after := by
  have sameTypes : fewApples.SameTypes manyApples := by
    intro name
    simp only [fewApples, manyApples, Bindings.get?]
    repeat' split
    all_goals grind [Value.ty]
  constructor
  · have few : evaluate 200 fewApples (.start leftOver) =
        .ok (.boolean true) (.atIndex leftOver 5) := by decide +kernel
    have many : evaluate 200 manyApples (.start leftOver) =
        .ok (.boolean false) (.atIndex leftOver 5) := by decide +kernel
    rcases evaluate_by_types 200 sameTypes (.start leftOver)
        (fun _ _ stops => by cases few.symm.trans stops)
        (fun _ _ stops => by cases many.symm.trans stops) with
          ⟨_, _, after, ran, ran', typed⟩ | ⟨_, _, failed, -⟩
    · cases few.symm.trans ran
      cases many.symm.trans ran'
      exact ⟨_, _, _, few, many, by decide, typed⟩
    · cases few.symm.trans failed
  · have few : evaluate 200 fewApples (.start labelled) =
        .error (.failure (.operation (.operands "+" .int .string))) (.atIndex labelled 5) := by
      decide +kernel
    have many : evaluate 200 manyApples (.start labelled) =
        .error (.failure (.operation (.operands "+" .int .string))) (.atIndex labelled 5) := by
      decide +kernel
    have defined : ∀ stop after, evaluate 200 fewApples (.start labelled) = .error stop after →
        stop.isNumeric = false := by
      intro stop after stops
      cases few.symm.trans stops
      rfl
    have defined' : ∀ stop after, evaluate 200 manyApples (.start labelled) =
        .error stop after → stop.isNumeric = false := by
      intro stop after stops
      cases many.symm.trans stops
      rfl
    rcases evaluate_by_types 200 sameTypes (.start labelled) defined defined' with
      ⟨_, _, _, ran, -⟩ | failed
    · cases few.symm.trans ran
    · exact failed

end Expression

end ToonScript
