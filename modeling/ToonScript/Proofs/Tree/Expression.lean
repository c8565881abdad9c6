import ToonScript.Machine.Expression

/-!
# Expressions as trees

The machine evaluates an expression while it reads it and never builds a tree. The trees are
defined here, on their own: the grammar has five tiers, and a chain of operators of one level is
a tree that leans to the left. `Expr.symbols` writes a tree down, and `Expr.value` is the value
that the tree has: operands from left to right, and the first operand or operator without a
value decides.

Trees are written as symbols. A symbol is what an evaluation can tell about a token: the value
of a literal, the text of an identifier, the kind of any other token. A list of tokens spells a
list of symbols when its tokens have these symbols, whatever their line numbers and the texts of
their signs are.
-/

set_option autoImplicit false

namespace ToonScript

open Token (Kind)

/-! ## Symbols -/

/-- What an evaluation can tell about a token. -/
inductive Symbol where
  | literal (value : Value)
  | name (text : Text)
  | sign (kind : Kind)
deriving DecidableEq

/-- The symbol of a token. -/
def Token.symbol (token : Token) : Symbol :=
  match token.literal with
  | some value => .literal value
  | none => if token.kind = .identifier then .name token.lexeme else .sign token.kind

/-- A list of tokens spells a list of symbols. -/
def Spells (tokens : List Token) (symbols : List Symbol) : Prop :=
  tokens.map Token.symbol = symbols

instance (tokens : List Token) (symbols : List Symbol) : Decidable (Spells tokens symbols) :=
  inferInstanceAs (Decidable (tokens.map Token.symbol = symbols))

namespace Token

variable {token : Token}

/-- A token of no literal kind has no value. -/
theorem literal_eq_none (plain : token.kind.isLiteral = false) : token.literal = none := by
  have consistent := token.literal_isSome
  rw [plain] at consistent
  exact Option.isSome_eq_false_iff.mp consistent |> Option.isNone_iff_eq_none.mp

theorem symbol_of_literal {value : Value} (carried : token.literal = some value) :
    token.symbol = .literal value := by
  simp only [symbol, carried]

theorem symbol_of_identifier (identifier : token.kind = .identifier) :
    token.symbol = .name token.lexeme := by
  have plain : token.literal = none := literal_eq_none (by rw [identifier]; rfl)
  simp only [symbol, plain, identifier, ↓reduceIte]

theorem symbol_of_sign (plain : token.kind.isLiteral = false)
    (other : token.kind ≠ .identifier) :
    token.symbol = .sign token.kind := by
  simp only [symbol, literal_eq_none plain, other, ↓reduceIte]

theorem literal_of_symbol {value : Value} (spelled : token.symbol = .literal value) :
    token.literal = some value := by
  unfold symbol at spelled
  split at spelled
  · next carried =>
      cases spelled
      exact carried
  · split at spelled <;> cases spelled

theorem of_symbol_name {text : Text} (spelled : token.symbol = .name text) :
    token.literal = none ∧ token.kind = .identifier ∧ token.lexeme = text := by
  unfold symbol at spelled
  split at spelled
  · cases spelled
  · next plain =>
      split at spelled
      · next identifier =>
          cases spelled
          exact ⟨plain, identifier, rfl⟩
      · cases spelled

theorem of_symbol_sign {kind : Kind} (spelled : token.symbol = .sign kind) :
    token.literal = none ∧ token.kind = kind := by
  unfold symbol at spelled
  split at spelled
  · cases spelled
  · next plain =>
      split at spelled
      · cases spelled
      · cases spelled
        exact ⟨plain, rfl⟩

end Token

namespace Spells

variable {tokens : List Token} {symbol : Symbol} {symbols before behind : List Symbol}

theorem nil_iff : Spells tokens [] ↔ tokens = [] := List.map_eq_nil_iff

theorem cons_iff :
    Spells tokens (symbol :: symbols) ↔
      ∃ token rest, tokens = token :: rest ∧ token.symbol = symbol ∧ Spells rest symbols :=
  List.map_eq_cons_iff

theorem append_iff :
    Spells tokens (before ++ behind) ↔
      ∃ front back, tokens = front ++ back ∧ Spells front before ∧ Spells back behind :=
  List.map_eq_append_iff

theorem append {front back : List Token} (spelledFront : Spells front before)
    (spelledBack : Spells back behind) : Spells (front ++ back) (before ++ behind) :=
  append_iff.mpr ⟨front, back, rfl, spelledFront, spelledBack⟩

theorem singleton {token : Token} (spelled : token.symbol = symbol) :
    Spells [token] [symbol] := by
  simp only [Spells, List.map_cons, List.map_nil, spelled]

end Spells

/-! ## The tiers of the grammar -/

/-- The levels of chains, from the tightest to the loosest. -/
inductive Level where
  | product | sum | logic
deriving DecidableEq, Repr

/-- The tiers of the grammar. -/
inductive Tier where
  | primary
  | chain (level : Level)
  | comparison
deriving DecidableEq, Repr

/-- The tier of the operands of a chain. -/
def Level.operand : Level → Tier
  | product => .primary
  | sum => .chain .product
  | logic => .comparison

/-- The signs between the operands of a chain. -/
inductive Sign : Level → Type where
  | divide : Sign .product
  | mod : Sign .product
  | power : Sign .product
  | plus : Sign .sum
  | minus : Sign .sum
  | and : Sign .logic
  | andAnd : Sign .logic
  | or : Sign .logic
  | orOr : Sign .logic

namespace Sign

/-- The kind of the tokens of a sign. -/
def kind : {level : Level} → Sign level → Kind
  | _, divide => .divide
  | _, mod => .mod
  | _, power => .power
  | _, plus => .plus
  | _, minus => .minus
  | _, and => .and
  | _, andAnd => .andAnd
  | _, or => .or
  | _, orOr => .orOr

/-- What a sign computes. -/
def apply : {level : Level} → Sign level → Value → Value → Except OperationError Value
  | _, divide => ArithmeticOp.div.apply
  | _, mod => ArithmeticOp.mod.apply
  | _, power => ArithmeticOp.pow.apply
  | _, plus => ArithmeticOp.add.apply
  | _, minus => ArithmeticOp.sub.apply
  | _, and | _, andAnd => LogicalOp.and.apply
  | _, or | _, orOr => LogicalOp.or.apply

end Sign

/-- The kind of the tokens of a comparison operator. -/
def ComparisonOp.kind : ComparisonOp → Kind
  | eq => .equal
  | ne => .notEqual
  | lt => .lessThan
  | gt => .greaterThan
  | le => .lessEqual
  | ge => .greaterEqual

/-! ## Trees -/

/-- The expressions of a tier. A chain is a single operand, or a chain with one more operand
behind a sign, so that it leans to the left; a comparison has one sign at most. -/
inductive Expr : Tier → Type where
  | literal (value : Value) : Expr .primary
  | var (name : Text) : Expr .primary
  | group (body : Expr (.chain .logic)) : Expr .primary
  | single {level : Level} (operand : Expr level.operand) : Expr (.chain level)
  | extend {level : Level} (init : Expr (.chain level)) (sign : Sign level)
      (operand : Expr level.operand) : Expr (.chain level)
  | uncompared (sum : Expr (.chain .sum)) : Expr .comparison
  | compare (left : Expr (.chain .sum)) (op : ComparisonOp) (right : Expr (.chain .sum)) :
      Expr .comparison

/-- The expressions that stand in statements: those of the loosest tier. -/
abbrev Formula := Expr (.chain .logic)

/-- The value of an operator, or the stop that its error means. -/
def operationValue : Except OperationError Value → Except Stop Value
  | .ok value => .ok value
  | .error error => .error (.ofOperation error)

namespace Expr

/-- A tree, written down. -/
def symbols : {tier : Tier} → Expr tier → List Symbol
  | _, literal value => [.literal value]
  | _, var name => [.name name]
  | _, group body => .sign .groupOpen :: (body.symbols ++ [.sign .groupClose])
  | _, single operand => operand.symbols
  | _, extend init sign operand => init.symbols ++ .sign sign.kind :: operand.symbols
  | _, uncompared sum => sum.symbols
  | _, compare left op right => left.symbols ++ .sign op.kind :: right.symbols

theorem symbols_ne_nil : ∀ {tier : Tier} (expr : Expr tier), expr.symbols ≠ []
  | _, literal _ => by simp [symbols]
  | _, var _ => by simp [symbols]
  | _, group _ => by simp [symbols]
  | _, single operand => symbols_ne_nil operand
  | _, extend _ _ _ => by simp [symbols]
  | _, uncompared sum => symbols_ne_nil sum
  | _, compare _ _ _ => by simp [symbols]

/-- The value of a tree: both operands of an operator are always evaluated, the left one first.
-/
def value (bindings : Bindings) : {tier : Tier} → Expr tier → Except Stop Value
  | _, literal value => .ok value
  | _, var name =>
    match bindings.get? name with
    | some value => .ok value
    | none => .error (.failure (.undefined name))
  | _, group body => body.value bindings
  | _, single operand => operand.value bindings
  | _, extend init sign operand => do
    let left ← init.value bindings
    let right ← operand.value bindings
    operationValue (sign.apply left right)
  | _, uncompared sum => sum.value bindings
  | _, compare left op right => do
    let left ← left.value bindings
    let right ← right.value bindings
    operationValue (op.apply left right)

/-- How deep groups are nested in a tree. -/
def nesting : {tier : Tier} → Expr tier → Nat
  | _, literal _ => 0
  | _, var _ => 0
  | _, group body => body.nesting + 1
  | _, single operand => operand.nesting
  | _, extend init _ operand => max init.nesting operand.nesting
  | _, uncompared sum => sum.nesting
  | _, compare left _ right => max left.nesting right.nesting

end Expr

end ToonScript
