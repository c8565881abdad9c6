import ToonScript.Proofs.Sequencing
import ToonScript.Proofs.Tree.Expression

/-!
# Evaluation follows the tree

Evaluation reads an expression tier by tier. The scan of a tier succeeds exactly on the spelled
trees of that tier, up to the first token that does not continue the tier, and its value is the
value of the tree.

* `scanner_sound`: a scan that succeeds has read a tree, and stands before a token that does not
  continue it.
* `scanner_spelled`: in front of a spelled tree, and of something that does not continue it, a
  scan gives the value of the tree or stops as the tree does.
* `evaluate_eq_ok_iff` states both for whole expressions, whose groups are nested no deeper than
  the limit.
-/

set_option autoImplicit false

namespace ToonScript

open Token (Kind)

/-! ## Which tokens continue an expression -/

/-- The operators of a level. -/
def Level.operator? : Level → Kind → Option Expression.Operator
  | product => Expression.multiplicativeOperator?
  | sum => Expression.additiveOperator?
  | logic => Expression.logicalOperator?

/-- Whether a token of a kind can continue an expression of a tier. -/
def Tier.continues : Tier → Kind → Bool
  | primary, _ => false
  | chain .product, kind => (Level.product.operator? kind).isSome
  | chain .sum, kind =>
      (Level.sum.operator? kind).isSome || (Level.product.operator? kind).isSome
  | comparison, kind =>
    (Expression.comparisonOperator? kind).isSome ||
      ((Level.sum.operator? kind).isSome || (Level.product.operator? kind).isSome)
  | chain .logic, kind =>
    (Level.logic.operator? kind).isSome || ((Expression.comparisonOperator? kind).isSome ||
      ((Level.sum.operator? kind).isSome || (Level.product.operator? kind).isSome))

/-- Whether a token of a kind, right behind a tree, is read as a part of it. A sum that was
compared is not compared again. -/
def Expr.continuedBy : {tier : Tier} → Expr tier → Kind → Bool
  | _, literal _, _ => false
  | _, var _, _ => false
  | _, group _, _ => false
  | .chain level, single operand, kind =>
      (level.operator? kind).isSome || operand.continuedBy kind
  | .chain level, extend _ _ operand, kind =>
      (level.operator? kind).isSome || operand.continuedBy kind
  | _, uncompared sum, kind =>
      (Expression.comparisonOperator? kind).isSome || sum.continuedBy kind
  | _, compare _ _ right, kind => right.continuedBy kind

/-- The tokens ahead do not continue a tree. -/
def Expr.Ends {tier : Tier} (expr : Expr tier) (ahead : List Token) : Prop :=
  ∀ token, ahead.head? = some token → expr.continuedBy token.kind = false

theorem Tier.continues_chain (level : Level) (kind : Kind) :
    (chain level).continues kind =
      ((level.operator? kind).isSome || level.operand.continues kind) := by
  cases level
  · exact (Bool.or_false _).symm
  · rfl
  · rfl

/-- What can continue no expression of a tier continues none of its trees. -/
theorem Expr.continuedBy_eq_false {kind : Kind} :
    ∀ {tier : Tier} (expr : Expr tier), tier.continues kind = false →
      expr.continuedBy kind = false
  | _, literal _, _ => rfl
  | _, var _, _ => rfl
  | _, group _, _ => rfl
  | .chain level, single operand, never => by
      rw [Tier.continues_chain, Bool.or_eq_false_iff] at never
      simp only [continuedBy, never.1, continuedBy_eq_false operand never.2, Bool.or_self]
  | .chain level, extend _ _ operand, never => by
      rw [Tier.continues_chain, Bool.or_eq_false_iff] at never
      simp only [continuedBy, never.1, continuedBy_eq_false operand never.2, Bool.or_self]
  | _, uncompared sum, never => by
      obtain ⟨uncompared, unsummed⟩ := Bool.or_eq_false_iff.mp never
      simp only [continuedBy, uncompared, continuedBy_eq_false sum unsummed, Bool.or_self]
  | _, compare _ _ right, never => by
      obtain ⟨-, unsummed⟩ := Bool.or_eq_false_iff.mp never
      simp only [continuedBy, continuedBy_eq_false right unsummed]

theorem Expr.ends_nil {tier : Tier} (expr : Expr tier) : expr.Ends [] :=
  fun token next => by cases next

theorem Expr.ends_cons {tier : Tier} {expr : Expr tier} {token : Token} {ahead : List Token} :
    expr.Ends (token :: ahead) ↔ expr.continuedBy token.kind = false := by
  simp only [Ends, List.head?_cons, Option.some.injEq, forall_eq']

/-! ## Signs and operators -/

theorem Sign.operator?_kind {level : Level} (sign : Sign level) :
    level.operator? sign.kind = some sign.apply := by
  cases sign <;> rfl

/-- The sign of a level is no part of its operands. -/
theorem Sign.operand_continues {level : Level} (sign : Sign level) :
    level.operand.continues sign.kind = false := by
  cases sign <;> rfl

/-- A sign is neither a literal nor an identifier. -/
theorem Sign.kind_plain {level : Level} (sign : Sign level) :
    sign.kind.isLiteral = false ∧ sign.kind ≠ .identifier := by
  cases sign <;> decide

theorem Sign.symbol_eq {level : Level} (sign : Sign level) {token : Token}
    (same : sign.kind = token.kind) : token.symbol = .sign sign.kind := by
  obtain ⟨plain, other⟩ := sign.kind_plain
  rw [same] at plain other ⊢
  exact Token.symbol_of_sign plain other

/-- Every operator of a level has a sign. -/
theorem Level.exists_sign {level : Level} {kind : Kind} {operator : Expression.Operator}
    (known : level.operator? kind = some operator) :
    ∃ sign : Sign level, sign.kind = kind ∧ sign.apply = operator := by
  cases level with
  | product =>
      cases kind <;> cases known
      · exact ⟨.divide, rfl, rfl⟩
      · exact ⟨.power, rfl, rfl⟩
      · exact ⟨.mod, rfl, rfl⟩
  | sum =>
      cases kind <;> cases known
      · exact ⟨.plus, rfl, rfl⟩
      · exact ⟨.minus, rfl, rfl⟩
  | logic =>
      cases kind <;> cases known
      · exact ⟨.and, rfl, rfl⟩
      · exact ⟨.andAnd, rfl, rfl⟩
      · exact ⟨.or, rfl, rfl⟩
      · exact ⟨.orOr, rfl, rfl⟩

theorem ComparisonOp.operator?_kind (op : ComparisonOp) :
    Expression.comparisonOperator? op.kind = some op.apply := by
  cases op <;> rfl

theorem ComparisonOp.sum_continues (op : ComparisonOp) :
    (Tier.chain .sum).continues op.kind = false := by
  cases op <;> rfl

theorem ComparisonOp.kind_plain (op : ComparisonOp) :
    op.kind.isLiteral = false ∧ op.kind ≠ .identifier := by
  cases op <;> decide

theorem ComparisonOp.symbol_eq (op : ComparisonOp) {token : Token}
    (same : op.kind = token.kind) :
    token.symbol = .sign op.kind := by
  obtain ⟨plain, other⟩ := op.kind_plain
  rw [same] at plain other ⊢
  exact Token.symbol_of_sign plain other

theorem ComparisonOp.exists_of_operator? {kind : Kind} {operator : Expression.Operator}
    (known : Expression.comparisonOperator? kind = some operator) :
    ∃ op : ComparisonOp, op.kind = kind ∧ op.apply = operator := by
  cases kind <;> cases known
  · exact ⟨.eq, rfl, rfl⟩
  · exact ⟨.ne, rfl, rfl⟩
  · exact ⟨.lt, rfl, rfl⟩
  · exact ⟨.gt, rfl, rfl⟩
  · exact ⟨.le, rfl, rfl⟩
  · exact ⟨.ge, rfl, rfl⟩

/-! ## A scan that succeeds has read a tree -/

namespace Expression

/-- The scan of a tier, where `group` evaluates what stands inside a group. -/
def scanner (bindings : Bindings) (group : Scan Value) : Tier → Scan Value
  | .primary => primary bindings group
  | .chain .product => multiplicative bindings group
  | .chain .sum => additive bindings group
  | .comparison => comparison bindings group
  | .chain .logic => logical bindings group

theorem scanner_chain (bindings : Bindings) (group : Scan Value) (level : Level) :
    scanner bindings group (.chain level) =
      chain level.operator? (scanner bindings group level.operand) := by
  cases level <;> rfl

/-- Between two places stands a tree of a tier, with groups nested `depth` deep at most, that
has a value; at the second place it is not continued. -/
def Reads (bindings : Bindings) (tier : Tier) (depth : Nat) (value : Value)
    (cursor after : Cursor) : Prop :=
  ∃ (expr : Expr tier) (tokens : List Token),
    Spells tokens expr.symbols ∧ expr.nesting ≤ depth ∧ expr.value bindings = .ok value ∧
      cursor.rest = tokens ++ after.rest ∧ after.last = Cursor.past cursor.last tokens ∧
        expr.Ends after.rest

/-- Where a scan succeeds, it has read a tree. -/
def Sound (bindings : Bindings) (tier : Tier) (depth : Nat) (scan : Scan Value) : Prop :=
  ∀ cursor value after, scan cursor = .ok value after →
    Reads bindings tier depth value cursor after

variable {bindings : Bindings} {depth : Nat} {group operand : Scan Value}

/-- How an operator of a level was passed, or none. -/
theorem operator?_eq_ok {level : Kind → Option Operator} {cursor after : Cursor}
    {found : Option Operator} (succeeds : operator? level cursor = .ok found after) :
    (found = none ∧ after = cursor ∧ ∀ token, cursor.rest.head? = some token →
      level token.kind = none) ∨
      ∃ operator token, found = some operator ∧ level token.kind = some operator ∧
        cursor.rest = token :: after.rest ∧ after.last = some token := by
  obtain ⟨last, rest⟩ := cursor
  cases rest with
  | nil =>
      cases succeeds
      exact .inl ⟨rfl, rfl, fun token next => by cases next⟩
  | cons token rest =>
      simp only [operator?] at succeeds
      split at succeeds
      · next operator known =>
          cases succeeds
          exact .inr ⟨operator, token, rfl, known, rfl, rfl⟩
      · next unknown =>
          cases succeeds
          refine .inl ⟨rfl, rfl, fun other next => ?_⟩
          cases next
          exact unknown

theorem operator?_ne_error {level : Kind → Option Operator} {cursor after : Cursor}
    {reason : Stop} : operator? level cursor ≠ .error reason after := by
  intro stops
  obtain ⟨last, rest⟩ := cursor
  cases rest with
  | nil => cases stops
  | cons token rest =>
      simp only [operator?] at stops
      split at stops <;> cases stops

theorem operate_eq_ok {result : Except OperationError Value} {cursor after : Cursor}
    {value : Value} (succeeds : operate result cursor = .ok value after) :
    result = .ok value ∧ cursor = after := by
  cases result with
  | ok computed =>
      cases succeeds
      exact ⟨rfl, rfl⟩
  | error error => cases succeeds

theorem operate_eq_error {result : Except OperationError Value} {cursor after : Cursor}
    {reason : Stop} (stops : operate result cursor = .error reason after) :
    ∃ error, result = .error error ∧ reason = .ofOperation error ∧ cursor = after := by
  cases result with
  | ok computed => cases stops
  | error error =>
      cases stops
      exact ⟨error, rfl, rfl, rfl⟩

theorem primary_sound
    (inner : ∀ cursor value after, group cursor = .ok value after →
      ∃ body : Nat, body + 1 ≤ depth ∧ Reads bindings (.chain .logic) body value cursor after) :
    Sound bindings .primary depth (primary bindings group) := by
  intro cursor value after succeeds
  obtain ⟨last, rest⟩ := cursor
  cases rest with
  | nil => cases succeeds
  | cons token rest =>
      simp only [primary] at succeeds
      split at succeeds
      · next carried =>
          cases succeeds
          exact ⟨.literal value, [token], Spells.singleton (Token.symbol_of_literal carried),
            Nat.zero_le _, rfl, rfl, rfl, fun _ _ => rfl⟩
      · next identifier =>
          split at succeeds
          · next bound =>
              cases succeeds
              refine ⟨.var token.lexeme, [token],
                Spells.singleton (Token.symbol_of_identifier identifier),
                Nat.zero_le _, ?_, rfl, rfl, fun _ _ => rfl⟩
              simp only [Expr.value, bound]
          · cases succeeds
      · next opens =>
          obtain ⟨computed, middle, evaluated, closed⟩ := bind_eq_ok.mp succeeds
          obtain ⟨close, final, passed, returned⟩ := bind_eq_ok.mp closed
          obtain ⟨rfl, rfl⟩ := pure_eq_ok.mp returned
          obtain ⟨parts, isLast, closes⟩ := Scan.expect_eq_ok.mp passed
          obtain ⟨body, bound, expr, tokens, spelled, shallow, valued, read, lastRead, -⟩ :=
            inner _ _ _ evaluated
          have spelledOpen : token.symbol = .sign .groupOpen := by
            rw [Token.symbol_of_sign (by rw [opens]; rfl) (by rw [opens]; decide), opens]
          have spelledClose : close.symbol = .sign .groupClose := by
            rw [Token.symbol_of_sign (by rw [closes]; rfl) (by rw [closes]; decide), closes]
          refine ⟨.group expr, token :: (tokens ++ [close]), ?_, ?_, valued, ?_, ?_,
            fun _ _ => rfl⟩
          · exact Spells.cons_iff.mpr ⟨token, _, rfl, spelledOpen,
              spelled.append (Spells.singleton spelledClose)⟩
          · show expr.nesting + 1 ≤ depth
            omega
          · show token :: rest = token :: (tokens ++ [close]) ++ final.rest
            have read' : rest = tokens ++ middle.rest := read
            rw [read', parts]
            simp
          · rw [isLast]
            simp
      · cases succeeds

/-- A chain that goes on has read the rest of a longer tree. The list bounds the number of
operators; as long as it is no shorter than the tokens ahead, it does not cut the chain short.
-/
theorem chainFrom_sound {level : Level} (inner : Sound bindings level.operand depth operand) :
    ∀ (ahead : List Token) {left value : Value} {cursor after : Cursor}
      (init : Expr (.chain level)), cursor.rest.length ≤ ahead.length → init.nesting ≤ depth →
      init.value bindings = .ok left →
      (∀ token, cursor.rest.head? = some token → level.operator? token.kind = none →
        init.continuedBy token.kind = false) →
      chainFrom level.operator? operand ahead left cursor = .ok value after →
      ∃ (expr : Expr (.chain level)) (tokens : List Token),
        expr.symbols = init.symbols ++ tokens.map Token.symbol ∧ expr.nesting ≤ depth ∧
          expr.value bindings = .ok value ∧ cursor.rest = tokens ++ after.rest ∧
          after.last = Cursor.past cursor.last tokens ∧ expr.Ends after.rest
  | [], left, value, cursor, after, init, bounded, shallow, valued, only, succeeds => by
      obtain ⟨rfl, rfl⟩ := pure_eq_ok.mp succeeds
      have ended : cursor.rest = [] := List.eq_nil_of_length_eq_zero (Nat.le_zero.mp bounded)
      refine ⟨init, [], (List.append_nil _).symm, shallow, valued, rfl, rfl, ?_⟩
      rw [ended]
      exact init.ends_nil
  | _ :: ahead, left, value, cursor, after, init, bounded, shallow, valued, only, succeeds => by
      obtain ⟨found, signed, looked, continues⟩ := bind_eq_ok.mp succeeds
      rcases operator?_eq_ok looked with
        ⟨rfl, rfl, none⟩ | ⟨operator, token, rfl, known, parts, isLast⟩
      · obtain ⟨rfl, rfl⟩ := pure_eq_ok.mp continues
        exact ⟨init, [], (List.append_nil _).symm, shallow, valued, rfl, rfl,
          fun token next => only token next (none token next)⟩
      · obtain ⟨right, middle, evaluated, operates⟩ := bind_eq_ok.mp continues
        obtain ⟨combined, _, operated, chained⟩ := bind_eq_ok.mp operates
        obtain ⟨applied, rfl⟩ := operate_eq_ok operated
        obtain ⟨sign, signKind, rfl⟩ := Level.exists_sign known
        obtain ⟨expr, tokens, spelled, shallowRight, valuedRight, read, lastRead, ends⟩ :=
          inner _ _ _ evaluated
        have bounded' : middle.rest.length ≤ ahead.length := by
          have shorter := congrArg List.length parts
          have shortest := congrArg List.length read
          simp only [List.length_cons, List.length_append] at shorter shortest bounded
          omega
        have valued' : (Expr.extend init sign expr).value bindings = .ok combined := by
          simp only [Expr.value, valued, valuedRight, bind, Except.bind, applied,
            operationValue]
        have only' : ∀ token, middle.rest.head? = some token →
            level.operator? token.kind = none →
            (Expr.extend init sign expr).continuedBy token.kind = false := by
          intro token next unknown
          simp only [Expr.continuedBy, unknown, Option.isSome_none, Bool.false_or]
          exact ends token next
        obtain ⟨whole, more, written, shallow', valuedWhole, readMore, lastMore, endsMore⟩ :=
          chainFrom_sound inner ahead (.extend init sign expr) bounded'
            (Nat.max_le.mpr ⟨shallow, shallowRight⟩) valued' only' chained
        refine ⟨whole, token :: (tokens ++ more), ?_, shallow', valuedWhole, ?_, ?_, endsMore⟩
        · rw [written]
          simp only [Expr.symbols, List.map_cons, List.map_append, sign.symbol_eq signKind,
            show tokens.map Token.symbol = expr.symbols from spelled, List.append_assoc,
            List.cons_append]
        · rw [parts, read, readMore]
          simp
        · rw [lastMore, lastRead, isLast]
          simp

theorem chain_sound {level : Level} (inner : Sound bindings level.operand depth operand) :
    Sound bindings (.chain level) depth (chain level.operator? operand) := by
  intro cursor value after succeeds
  obtain ⟨left, middle, evaluated, chained⟩ := bind_eq_ok.mp succeeds
  obtain ⟨expr, tokens, spelled, shallow, valued, read, lastRead, ends⟩ := inner _ _ _ evaluated
  have only : ∀ token, middle.rest.head? = some token → level.operator? token.kind = none →
      (Expr.single expr).continuedBy token.kind = false := by
    intro token next unknown
    simp only [Expr.continuedBy, unknown, Option.isSome_none, Bool.false_or]
    exact ends token next
  obtain ⟨whole, more, written, shallow', valuedWhole, readMore, lastMore, endsMore⟩ :=
    chainFrom_sound inner middle.rest (.single expr) (Nat.le_refl _) shallow valued only chained
  refine ⟨whole, tokens ++ more, ?_, shallow', valuedWhole, ?_, ?_, endsMore⟩
  · rw [written]
    exact spelled.append rfl
  · rw [read, readMore, List.append_assoc]
  · rw [lastMore, lastRead, Cursor.past_append]

theorem compared_sound (inner : Sound bindings (.chain .sum) depth operand) :
    Sound bindings .comparison depth (compared operand) := by
  intro cursor value after succeeds
  obtain ⟨left, middle, evaluated, compares⟩ := bind_eq_ok.mp succeeds
  obtain ⟨found, signed, looked, continues⟩ := bind_eq_ok.mp compares
  obtain ⟨expr, tokens, spelled, shallow, valued, read, lastRead, ends⟩ := inner _ _ _ evaluated
  rcases operator?_eq_ok looked with
    ⟨rfl, rfl, none⟩ | ⟨operator, token, rfl, known, parts, isLast⟩
  · obtain ⟨rfl, rfl⟩ := pure_eq_ok.mp continues
    refine ⟨.uncompared expr, tokens, spelled, shallow, valued, read, lastRead,
      fun token next => ?_⟩
    simp only [Expr.continuedBy, none token next, Option.isSome_none, Bool.false_or]
    exact ends token next
  · obtain ⟨right, _, evaluatedRight, operated⟩ := bind_eq_ok.mp continues
    obtain ⟨applied, rfl⟩ := operate_eq_ok operated
    obtain ⟨op, opKind, rfl⟩ := ComparisonOp.exists_of_operator? known
    obtain ⟨other, more, spelledRight, shallowRight, valuedRight, readRight,
      lastRight, endsRight⟩ :=
      inner _ _ _ evaluatedRight
    refine ⟨.compare expr op other, tokens ++ token :: more, ?_,
      Nat.max_le.mpr ⟨shallow, shallowRight⟩, ?_, ?_, ?_, endsRight⟩
    · exact spelled.append (Spells.cons_iff.mpr ⟨token, more, rfl, op.symbol_eq opKind,
        spelledRight⟩)
    · simp only [Expr.value, valued, valuedRight, bind, Except.bind, applied, operationValue]
    · rw [read, parts, readRight, List.append_assoc, List.cons_append]
    · rw [lastRight, isLast, Cursor.past_append, Cursor.past_cons]

/-- What holds of groups passes from tier to tier. -/
theorem scanner_sound_of_group
    (inner : ∀ cursor value after, group cursor = .ok value after →
      ∃ body : Nat, body + 1 ≤ depth ∧ Reads bindings (.chain .logic) body value cursor after) :
    ∀ tier : Tier, Sound bindings tier depth (scanner bindings group tier) := by
  have primary : Sound bindings Level.product.operand depth (scanner bindings group .primary) :=
    primary_sound inner
  have product :
      Sound bindings Level.sum.operand depth (scanner bindings group (.chain .product)) :=
    chain_sound primary
  have sum : Sound bindings (.chain .sum) depth (scanner bindings group (.chain .sum)) :=
    chain_sound product
  have comparison :
      Sound bindings Level.logic.operand depth (scanner bindings group .comparison) :=
    compared_sound sum
  intro tier
  match tier with
  | .primary => exact primary
  | .chain .product => exact product
  | .chain .sum => exact sum
  | .comparison => exact comparison
  | .chain .logic => exact chain_sound comparison

/-- **A scan that succeeds has read a tree**, and the tree is not continued by the tokens behind
it. -/
theorem scanner_sound (bindings : Bindings) (depth : Nat) :
    ∀ tier : Tier,
      Sound bindings tier depth (scanner bindings (inside bindings depth) tier) := by
  induction depth with
  | zero => exact scanner_sound_of_group fun _ _ _ succeeds => by cases succeeds
  | succ depth ih =>
      exact scanner_sound_of_group fun cursor value after succeeds =>
        ⟨depth, Nat.le_refl _, ih (.chain .logic) cursor value after succeeds⟩

/-! ## A chain without its bound -/

/-- A scan that passes at least one token where it succeeds. -/
def Advances (scan : Scan Value) : Prop :=
  ∀ cursor value after, scan cursor = .ok value after → after.rest.length < cursor.rest.length

theorem Sound.advances {tier : Tier} {scan : Scan Value}
    (sound : Sound bindings tier depth scan) :
    Advances scan := by
  intro cursor value after succeeds
  obtain ⟨expr, tokens, spelled, -, -, read, -⟩ := sound _ _ _ succeeds
  have some : tokens ≠ [] := by
    rintro rfl
    exact expr.symbols_ne_nil spelled.symm
  have length := congrArg List.length read
  have positive := List.length_pos_iff.mpr some
  rw [List.length_append] at length
  omega

/-- Two bounds that are not shorter than the tokens ahead give the same chain. -/
theorem chainFrom_bound {level : Kind → Option Operator} (advances : Advances operand) :
    ∀ (bound other : List Token) (left : Value) (cursor : Cursor),
      cursor.rest.length ≤ bound.length → cursor.rest.length ≤ other.length →
      chainFrom level operand bound left cursor = chainFrom level operand other left cursor
  | [], [], _, _, _, _ => rfl
  | [], _ :: _, left, ⟨last, rest⟩, bounded, _ => by
      obtain rfl : rest = [] := List.eq_nil_of_length_eq_zero (Nat.le_zero.mp bounded)
      rfl
  | _ :: _, [], left, ⟨last, rest⟩, _, bounded => by
      obtain rfl : rest = [] := List.eq_nil_of_length_eq_zero (Nat.le_zero.mp bounded)
      rfl
  | _ :: bound, _ :: other, left, cursor, bounded, bounded' => by
      refine bind_congr_of_ok fun found signed looked => ?_
      rcases operator?_eq_ok looked with ⟨rfl, -, -⟩ | ⟨operator, token, rfl, -, parts, -⟩
      · rfl
      · refine bind_congr_of_ok fun right middle evaluated => ?_
        refine bind_congr_of_ok fun combined _ operated => ?_
        obtain ⟨-, rfl⟩ := operate_eq_ok operated
        have shorter := advances _ _ _ evaluated
        have length := congrArg List.length parts
        simp only [List.length_cons] at length bounded bounded'
        exact chainFrom_bound advances bound other combined middle (by omega) (by omega)

/-- A chain that goes on from a value, as far as the tokens allow. -/
def chainOn (level : Kind → Option Operator) (operand : Scan Value) (left : Value) :
    Scan Value :=
  fun cursor => chainFrom level operand cursor.rest left cursor

theorem chain_eq (level : Kind → Option Operator) (operand : Scan Value) :
    chain level operand = operand >>= chainOn level operand := rfl

theorem chainOn_of_none {level : Kind → Option Operator} {left : Value} {cursor : Cursor}
    (none : ∀ token, cursor.rest.head? = some token → level token.kind = none) :
    chainOn level operand left cursor = .ok left cursor := by
  obtain ⟨last, rest⟩ := cursor
  cases rest with
  | nil => rfl
  | cons token rest =>
      have unknown := none token rfl
      have looked : operator? level ⟨last, token :: rest⟩ =
          .ok .none ⟨last, token :: rest⟩ := by
        simp only [operator?, unknown]
      exact bind_of_ok looked

theorem chainOn_of_some {level : Kind → Option Operator} (advances : Advances operand)
    {operator : Operator} {token : Token} (known : level token.kind = some operator)
    (left : Value) (last : Option Token) (rest : List Token) :
    chainOn level operand left ⟨last, token :: rest⟩ =
      (operand >>= fun right => operate (operator left right) >>= chainOn level operand)
        ⟨some token, rest⟩ := by
  have looked : operator? level ⟨last, token :: rest⟩ =
      .ok (some operator) ⟨some token, rest⟩ := by
    simp only [operator?, known]
  refine (bind_of_ok looked).trans (bind_congr_of_ok fun right middle evaluated => ?_)
  refine bind_congr_of_ok fun combined _ operated => ?_
  obtain ⟨-, rfl⟩ := operate_eq_ok operated
  have shorter := advances _ _ _ evaluated
  exact chainFrom_bound advances _ _ combined middle (Nat.le_of_lt shorter) (Nat.le_refl _)

/-- A comparison that goes on from the value of its left operand. -/
def comparedOn (operand : Scan Value) (left : Value) : Scan Value := do
  match ← operator? comparisonOperator? with
  | none => pure left
  | some operator =>
    let right ← operand
    operate (operator left right)

theorem compared_eq (operand : Scan Value) :
    compared operand = operand >>= comparedOn operand := rfl

theorem comparedOn_of_none {left : Value} {cursor : Cursor}
    (none : ∀ token, cursor.rest.head? = some token → comparisonOperator? token.kind = none) :
    comparedOn operand left cursor = .ok left cursor := by
  obtain ⟨last, rest⟩ := cursor
  cases rest with
  | nil => rfl
  | cons token rest =>
      have looked : operator? comparisonOperator? ⟨last, token :: rest⟩ =
          .ok .none ⟨last, token :: rest⟩ := by
        simp only [operator?, none token rfl]
      exact bind_of_ok looked

theorem comparedOn_of_some {operator : Operator} {token : Token}
    (known : comparisonOperator? token.kind = some operator) (left : Value)
    (last : Option Token) (rest : List Token) :
    comparedOn operand left ⟨last, token :: rest⟩ =
      (operand >>= fun right => operate (operator left right)) ⟨some token, rest⟩ := by
  have looked : operator? comparisonOperator? ⟨last, token :: rest⟩ =
      .ok (some operator) ⟨some token, rest⟩ := by
    simp only [operator?, known]
  exact bind_of_ok looked

/-! ## A spelled tree is read as it is -/

/-- A result that is what `next` makes of a value, or stops as the missing value says. -/
def Leads (result : EStateM.Result Stop Cursor Value) (value : Except Stop Value)
    (next : Value → EStateM.Result Stop Cursor Value) : Prop :=
  match value with
  | .ok computed => result = next computed
  | .error stop => ∃ cursor, result = .error stop cursor

namespace Leads

variable {scan : Scan Value} {value : Except Stop Value} {cursor after : Cursor}
  {result : EStateM.Result Stop Cursor Value} {next : Value → EStateM.Result Stop Cursor Value}

/-- What follows a scan that delivers a value. -/
theorem andThen (next : Value → Scan Value)
    (delivered : Leads (scan cursor) value (.ok · after)) :
    Leads ((scan >>= next) cursor) value (next · after) := by
  cases value with
  | ok computed => exact bind_of_ok delivered
  | error stop =>
      obtain ⟨stopped, stops⟩ := delivered
      exact ⟨stopped, bind_of_error stops⟩

/-- A value that is computed from another. -/
theorem trans {more : Value → Except Stop Value}
    {last : Value → EStateM.Result Stop Cursor Value} (first : Leads result value next)
    (second : ∀ computed, Leads (next computed) (more computed) last) :
    Leads result (value >>= more) last := by
  cases value with
  | ok computed =>
      obtain rfl : result = next computed := first
      exact second computed
  | error stop => exact first

theorem congr {next' : Value → EStateM.Result Stop Cursor Value}
    (leads : Leads result value next) (same : ∀ computed, next computed = next' computed) :
    Leads result value next' := by
  cases value with
  | ok computed => exact Eq.trans leads (same computed)
  | error stop => exact leads

theorem operate (computed : Except OperationError Value) (cursor : Cursor) :
    Leads (Expression.operate computed cursor) (operationValue computed) (.ok · cursor) := by
  cases computed with
  | ok value => rfl
  | error error => exact ⟨cursor, rfl⟩

end Leads

/-- How the scan of a tier goes on when it has a value: a chain may be extended. -/
def resume (bindings : Bindings) (group : Scan Value) : Tier → Value → Scan Value
  | .chain level => chainOn level.operator? (scanner bindings group level.operand)
  | _ => pure

/-- Whether a token of a kind is read when the scan of a tier goes on. -/
def resumes : Tier → Kind → Bool
  | .chain level, kind => (level.operator? kind).isSome
  | _, _ => false

/-- A tree that is not continued is not resumed. -/
theorem resume_of_ends {tier : Tier} {expr : Expr tier} {value : Value} {last : Option Token}
    {ahead : List Token} (ends : expr.Ends ahead) :
    resume bindings group tier value ⟨last, ahead⟩ = .ok value ⟨last, ahead⟩ := by
  match tier, expr with
  | .primary, _ => rfl
  | .comparison, _ => rfl
  | .chain level, .single _ | .chain level, .extend _ _ _ =>
      refine chainOn_of_none fun token next => ?_
      have ended := ends token next
      simp only [Expr.continuedBy, Bool.or_eq_false_iff] at ended
      exact Option.isNone_iff_eq_none.mp (Option.isSome_eq_false_iff.mp ended.1)

/-- Where a chain is resumed or ends, its last operand ends. -/
theorem operand_ends {level : Level} {operand : Expr level.operand} {ahead : List Token}
    (resumed : ∀ token, ahead.head? = some token → (level.operator? token.kind).isSome = true ∨
      ((level.operator? token.kind).isSome || operand.continuedBy token.kind) = false) :
    operand.Ends ahead := by
  intro token next
  rcases resumed token next with known | ended
  · obtain ⟨operator, known⟩ := Option.isSome_iff_exists.mp known
    obtain ⟨sign, signKind, -⟩ := Level.exists_sign known
    apply Expr.continuedBy_eq_false
    rw [← signKind]
    exact sign.operand_continues
  · exact (Bool.or_eq_false_iff.mp ended).2

/-- **A spelled tree is read as it is.** In front of the tokens of a tree, the scan of its tier
has the value of the tree behind them, or it stops as the tree does. -/
theorem scanner_spelled (bindings : Bindings) :
    ∀ {tier : Tier} (expr : Expr tier) {depth : Nat}, expr.nesting ≤ depth →
      ∀ {tokens ahead : List Token}, Spells tokens expr.symbols →
        (∀ token, ahead.head? = some token →
          resumes tier token.kind = true ∨ expr.continuedBy token.kind = false) →
        ∀ last : Option Token,
          Leads (scanner bindings (inside bindings depth) tier ⟨last, tokens ++ ahead⟩)
            (expr.value bindings)
            (resume bindings (inside bindings depth) tier · ⟨Cursor.past last tokens, ahead⟩)
  | _, .literal value, depth, _, tokens, ahead, spelled, _, last => by
      obtain ⟨token, rest, rfl, literal, nothing⟩ := Spells.cons_iff.mp spelled
      obtain rfl := Spells.nil_iff.mp nothing
      have carried := Token.literal_of_symbol literal
      show primary bindings _ ⟨last, token :: ahead⟩ = .ok value ⟨some token, ahead⟩
      simp only [primary, carried]
  | _, .var name, depth, _, tokens, ahead, spelled, _, last => by
      obtain ⟨token, rest, rfl, named, nothing⟩ := Spells.cons_iff.mp spelled
      obtain rfl := Spells.nil_iff.mp nothing
      obtain ⟨plain, identifier, rfl⟩ := Token.of_symbol_name named
      show Leads (primary bindings _ ⟨last, token :: ahead⟩) _ _
      simp only [primary, plain, identifier, Expr.value]
      cases bindings.get? token.lexeme with
      | some value => exact rfl
      | none => exact ⟨_, rfl⟩
  | _, .group _, 0, shallow, _, _, _, _, _ => absurd shallow (Nat.not_succ_le_zero _)
  | _, .group body, depth + 1, shallow, tokens, ahead, spelled, _, last => by
      obtain ⟨opening, inner, rfl, spelledOpen, spelledInner⟩ := Spells.cons_iff.mp spelled
      obtain ⟨within, behind, rfl, spelledBody, spelledClose⟩ :=
        Spells.append_iff.mp spelledInner
      obtain ⟨closing, rest, rfl, closeSymbol, nothing⟩ := Spells.cons_iff.mp spelledClose
      obtain rfl := Spells.nil_iff.mp nothing
      obtain ⟨plain, opens⟩ := Token.of_symbol_sign spelledOpen
      obtain ⟨-, closes⟩ := Token.of_symbol_sign closeSymbol
      have ends : body.Ends (closing :: ahead) := by
        rw [Expr.ends_cons, closes]
        exact body.continuedBy_eq_false rfl
      have delivered :=
        scanner_spelled bindings body (Nat.le_of_succ_le_succ shallow) spelledBody
          (fun token next => .inr (ends token next)) (some opening)
      simp only [resume_of_ends ends] at delivered
      show Leads (primary bindings _ ⟨last, opening :: (within ++ [closing] ++ ahead)⟩) _ _
      simp only [primary, plain, opens, List.append_assoc, List.singleton_append]
      refine (delivered.andThen _).congr fun value => ?_
      rw [bind_of_ok (Scan.expect_of_kind closes _ _ _)]
      simp only [Cursor.past_cons, Cursor.past_append, Cursor.past_nil]
      rfl
  | .chain level, .single operand, depth, shallow, tokens, ahead, spelled, resumed, last => by
      have ends : operand.Ends ahead := operand_ends resumed
      have delivered := scanner_spelled bindings operand shallow spelled
        (fun token next => .inr (ends token next)) last
      simp only [resume_of_ends ends] at delivered
      rw [scanner_chain, chain_eq]
      exact delivered.andThen _
  | .chain level, .extend init sign operand, depth, shallow, tokens, ahead, spelled,
    resumed, last => by
      obtain ⟨front, behind, rfl, spelledInit, spelledBehind⟩ := Spells.append_iff.mp spelled
      obtain ⟨token, back, rfl, signSymbol, spelledOperand⟩ := Spells.cons_iff.mp spelledBehind
      obtain ⟨-, signKind⟩ := Token.of_symbol_sign signSymbol
      obtain ⟨shallowInit, shallowOperand⟩ := Nat.max_le.mp shallow
      have known : level.operator? token.kind = some sign.apply := by
        rw [signKind]
        exact sign.operator?_kind
      have resumedInit : ∀ other, (token :: (back ++ ahead)).head? = some other →
          resumes (.chain level) other.kind = true ∨ init.continuedBy other.kind = false := by
        intro other next
        cases next
        exact .inl (Option.isSome_iff_exists.mpr ⟨_, known⟩)
      have first := scanner_spelled bindings init shallowInit spelledInit resumedInit last
      have ends : operand.Ends ahead := operand_ends resumed
      have second := scanner_spelled bindings operand shallowOperand spelledOperand
        (fun token next => .inr (ends token next)) (some token)
      simp only [resume_of_ends ends] at second
      have advances := (scanner_sound bindings depth level.operand).advances
      rw [List.append_assoc, List.cons_append]
      refine first.trans fun left => ?_
      rw [show resume bindings (inside bindings depth) (.chain level) left =
        chainOn level.operator? _ left from rfl, chainOn_of_some advances known]
      refine (second.andThen _).trans fun right => ?_
      rw [Cursor.past_append, Cursor.past_cons]
      exact (Leads.operate _ _).andThen _
  | _, .uncompared sum, depth, shallow, tokens, ahead, spelled, resumed, last => by
      have ended : ∀ token, ahead.head? = some token → comparisonOperator? token.kind = none ∧
          sum.continuedBy token.kind = false := by
        intro token next
        have ended := (resumed token next).resolve_left (by simp [resumes])
        simp only [Expr.continuedBy, Bool.or_eq_false_iff] at ended
        exact ⟨Option.isNone_iff_eq_none.mp (Option.isSome_eq_false_iff.mp ended.1), ended.2⟩
      have ends : sum.Ends ahead := fun token next => (ended token next).2
      have delivered := scanner_spelled bindings sum shallow spelled
        (fun token next => .inr (ends token next)) last
      simp only [resume_of_ends ends] at delivered
      show Leads (compared _ _) _ _
      rw [compared_eq]
      exact (delivered.andThen _).congr fun left =>
        comparedOn_of_none fun token next => (ended token next).1
  | _, .compare left op right, depth, shallow, tokens, ahead, spelled, resumed, last => by
      obtain ⟨front, behind, rfl, spelledLeft, spelledBehind⟩ := Spells.append_iff.mp spelled
      obtain ⟨token, back, rfl, opSymbol, spelledRight⟩ := Spells.cons_iff.mp spelledBehind
      obtain ⟨-, opKind⟩ := Token.of_symbol_sign opSymbol
      obtain ⟨shallowLeft, shallowRight⟩ := Nat.max_le.mp shallow
      have known : comparisonOperator? token.kind = some op.apply := by
        rw [opKind]
        exact op.operator?_kind
      have endsLeft : left.Ends (token :: (back ++ ahead)) := by
        rw [Expr.ends_cons, opKind]
        exact left.continuedBy_eq_false op.sum_continues
      have endsRight : right.Ends ahead := fun token next =>
        (resumed token next).resolve_left (by simp [resumes])
      have first := scanner_spelled bindings left shallowLeft spelledLeft
        (fun token next => .inr (endsLeft token next)) last
      have second := scanner_spelled bindings right shallowRight spelledRight
        (fun token next => .inr (endsRight token next)) (some token)
      simp only [resume_of_ends endsLeft] at first
      simp only [resume_of_ends endsRight] at second
      show Leads (compared _ _) _ _
      rw [compared_eq, List.append_assoc, List.cons_append]
      refine (first.andThen _).trans fun value => ?_
      rw [comparedOn_of_some known]
      refine (second.andThen _).trans fun other => ?_
      rw [Cursor.past_append, Cursor.past_cons]
      exact Leads.operate _ _

/-! ## Whole expressions -/

/-- In front of a spelled expression, and of something that does not continue it, evaluation
gives the value of the tree or stops as the tree does. -/
theorem evaluate_spelled {limit : Nat} (bindings : Bindings) {formula : Formula}
    (shallow : formula.nesting ≤ limit) {tokens ahead : List Token}
    (spelled : Spells tokens formula.symbols) (ends : formula.Ends ahead)
    (last : Option Token) :
    Leads (evaluate limit bindings ⟨last, tokens ++ ahead⟩) (formula.value bindings)
      (.ok · ⟨Cursor.past last tokens, ahead⟩) := by
  have read := scanner_spelled bindings formula shallow spelled
    (fun token next => .inr (ends token next)) last
  simp only [resume_of_ends ends] at read
  exact read

/-- **Evaluation succeeds exactly on spelled expressions**, with the value of the tree. -/
theorem evaluate_eq_ok_iff {limit : Nat} {value : Value} {cursor after : Cursor} :
    evaluate limit bindings cursor = .ok value after ↔
      Reads bindings (.chain .logic) limit value cursor after := by
  constructor
  · exact scanner_sound bindings limit (.chain .logic) cursor value after
  · rintro ⟨formula, tokens, spelled, shallow, valued, read, lastRead, ends⟩
    obtain ⟨last, rest⟩ := cursor
    obtain ⟨last', rest'⟩ := after
    obtain rfl : rest = tokens ++ rest' := read
    obtain rfl : last' = Cursor.past last tokens := lastRead
    have delivered := evaluate_spelled bindings shallow spelled ends last
    rwa [valued] at delivered

theorem evaluate_advances (limit : Nat) (bindings : Bindings) :
    Advances (evaluate limit bindings) :=
  (scanner_sound bindings limit (.chain .logic)).advances

/-- An expression that has a value has it under every higher limit. -/
theorem evaluate_of_le {limit higher : Nat} (le : limit ≤ higher) {value : Value}
    {cursor after : Cursor} (succeeds : evaluate limit bindings cursor = .ok value after) :
    evaluate higher bindings cursor = .ok value after := by
  obtain ⟨formula, tokens, spelled, shallow, rest⟩ := evaluate_eq_ok_iff.mp succeeds
  exact evaluate_eq_ok_iff.mpr ⟨formula, tokens, spelled, Nat.le_trans shallow le, rest⟩

/-- Where an expression ends does not depend on the variables, nor on the limit. -/
theorem evaluate_place_unique {limit limit' : Nat} {other : Bindings} {value value' : Value}
    {cursor after after' : Cursor} (succeeds : evaluate limit bindings cursor = .ok value after)
    (succeeds' : evaluate limit' other cursor = .ok value' after') : after = after' := by
  replace succeeds := evaluate_of_le (Nat.le_max_left limit limit') succeeds
  replace succeeds' := evaluate_of_le (Nat.le_max_right limit limit') succeeds'
  obtain ⟨formula, tokens, spelled, shallow, -, read, lastRead, ends⟩ :=
    evaluate_eq_ok_iff.mp succeeds
  obtain ⟨last, rest⟩ := cursor
  obtain ⟨last', rest'⟩ := after
  obtain rfl : rest = tokens ++ rest' := read
  obtain rfl : last' = Cursor.past last tokens := lastRead
  have delivered := evaluate_spelled other shallow spelled ends last
  rw [succeeds'] at delivered
  cases valued : formula.value other with
  | ok computed =>
      rw [valued] at delivered
      cases delivered
      rfl
  | error stop =>
      rw [valued] at delivered
      obtain ⟨stopped, stops⟩ := delivered
      cases stops

/-- More tokens behind an expression do not change it, if a token behind it is known already. -/
theorem evaluate_append {limit : Nat} {value : Value} {cursor after : Cursor}
    (more : List Token) (succeeds : evaluate limit bindings cursor = .ok value after)
    (inside : after.rest ≠ []) :
    evaluate limit bindings ⟨cursor.last, cursor.rest ++ more⟩ =
      .ok value ⟨after.last, after.rest ++ more⟩ := by
  obtain ⟨formula, tokens, spelled, shallow, valued, read, lastRead, ends⟩ :=
    evaluate_eq_ok_iff.mp succeeds
  refine evaluate_eq_ok_iff.mpr ⟨formula, tokens, spelled, shallow, valued, ?_, lastRead, ?_⟩
  · rw [read, List.append_assoc]
  · intro token next
    cases behind : after.rest with
    | nil => exact absurd behind inside
    | cons first rest =>
        rw [behind] at next ends
        exact ends token next

end Expression

end ToonScript
