import ToonScript.Proofs.Evaluation
import ToonScript.Proofs.Tree.Printing

/-!
# The grammar of expressions

The evaluator reads an expression and computes it in the same pass. Here its two parts are told
apart: which tokens it accepts, and what it makes of them.

`Derives` is the grammar, as a relation between tokens and trees: a chain is an operand, or a
chain with one more operand behind a sign of its level, a comparison has at most one sign, and a
primary is a literal, an identifier or a group. The value of a tree is `Expr.value`, which knows
nothing of tokens.

Evaluation accepts exactly this grammar (`Expression.evaluate_follows_grammar`). Where it
succeeds it has passed tokens that derive from the grammar, and gives the value of their tree.
In front of tokens that derive from the grammar, with no operator behind them, it does what the
tree does: it gives the value, or stops with the first error of the tree. Such an error is about
a name or an operation, never about the shape of the program (`Expr.value_eq_error`).
-/

set_option autoImplicit false

namespace ToonScript

open Token (Kind)

/-! ## Derivations -/

/-- Tokens derive from a tier of the grammar, with a tree. -/
inductive Derives : {tier : Tier} → List Token → Expr tier → Prop where
  | literal {token : Token} {value : Value} (carried : token.literal = some value) :
      Derives [token] (.literal value)
  | var {token : Token} (identifier : token.kind = .identifier) :
      Derives [token] (.var token.lexeme)
  | group {opening closing : Token} {inner : List Token} {body : Formula}
      (opens : opening.kind = .groupOpen) (derived : Derives inner body)
      (closes : closing.kind = .groupClose) :
      Derives (opening :: (inner ++ [closing])) (.group body)
  | single {level : Level} {tokens : List Token} {operand : Expr level.operand}
      (derived : Derives tokens operand) :
      Derives tokens (.single operand)
  | extend {level : Level} {front back : List Token} {token : Token}
      {init : Expr (.chain level)} {sign : Sign level} {operand : Expr level.operand}
      (derivedInit : Derives front init) (signed : token.kind = sign.kind)
      (derivedOperand : Derives back operand) :
      Derives (front ++ token :: back) (.extend init sign operand)
  | uncompared {tokens : List Token} {sum : Expr (.chain .sum)} (derived : Derives tokens sum) :
      Derives tokens (.uncompared sum)
  | compare {front back : List Token} {token : Token} {left right : Expr (.chain .sum)}
      {op : ComparisonOp} (derivedLeft : Derives front left) (signed : token.kind = op.kind)
      (derivedRight : Derives back right) :
      Derives (front ++ token :: back) (.compare left op right)

/-- Tokens that derive from the grammar spell their tree. -/
theorem Derives.spells {tier : Tier} {tokens : List Token} {expr : Expr tier}
    (derived : Derives tokens expr) :
    Spells tokens expr.symbols := by
  induction derived with
  | literal carried => exact .singleton (Token.symbol_of_literal carried)
  | var identifier => exact .singleton (Token.symbol_of_identifier identifier)
  | group opens _ closes ih =>
      have spelledOpen := Token.symbol_of_sign (by rw [opens]; rfl) (by rw [opens]; decide)
      have spelledClose := Token.symbol_of_sign (by rw [closes]; rfl) (by rw [closes]; decide)
      rw [opens] at spelledOpen
      rw [closes] at spelledClose
      exact Spells.cons_iff.mpr ⟨_, _, rfl, spelledOpen, ih.append (.singleton spelledClose)⟩
  | single _ ih => exact ih
  | extend _ signed _ ihInit ihOperand =>
      exact ihInit.append
        (Spells.cons_iff.mpr ⟨_, _, rfl, Sign.symbol_eq _ signed.symm, ihOperand⟩)
  | uncompared _ ih => exact ih
  | compare _ signed _ ihLeft ihRight =>
      exact ihLeft.append
        (Spells.cons_iff.mpr ⟨_, _, rfl, ComparisonOp.symbol_eq _ signed.symm, ihRight⟩)

/-- Tokens that spell a tree derive from the grammar with it. -/
theorem Spells.derives :
    ∀ {tier : Tier} (expr : Expr tier) {tokens : List Token}, Spells tokens expr.symbols →
      Derives tokens expr
  | _, .literal _, _, spelled => by
      obtain ⟨token, rest, rfl, literal, nothing⟩ := cons_iff.mp spelled
      obtain rfl := nil_iff.mp nothing
      exact .literal (Token.literal_of_symbol literal)
  | _, .var _, _, spelled => by
      obtain ⟨token, rest, rfl, named, nothing⟩ := cons_iff.mp spelled
      obtain rfl := nil_iff.mp nothing
      obtain ⟨-, identifier, rfl⟩ := Token.of_symbol_name named
      exact .var identifier
  | _, .group body, _, spelled => by
      obtain ⟨opening, inner, rfl, spelledOpen, spelledInner⟩ := cons_iff.mp spelled
      obtain ⟨within, behind, rfl, spelledBody, spelledClose⟩ := append_iff.mp spelledInner
      obtain ⟨closing, rest, rfl, closeSymbol, nothing⟩ := cons_iff.mp spelledClose
      obtain rfl := nil_iff.mp nothing
      exact .group (Token.of_symbol_sign spelledOpen).2 (derives body spelledBody)
        (Token.of_symbol_sign closeSymbol).2
  | _, .single operand, _, spelled => .single (derives operand spelled)
  | _, .extend init _ operand, _, spelled => by
      obtain ⟨front, behind, rfl, spelledInit, spelledBehind⟩ := append_iff.mp spelled
      obtain ⟨token, back, rfl, signSymbol, spelledOperand⟩ := cons_iff.mp spelledBehind
      exact .extend (derives init spelledInit) (Token.of_symbol_sign signSymbol).2
        (derives operand spelledOperand)
  | _, .uncompared sum, _, spelled => .uncompared (derives sum spelled)
  | _, .compare left _ right, _, spelled => by
      obtain ⟨front, behind, rfl, spelledLeft, spelledBehind⟩ := append_iff.mp spelled
      obtain ⟨token, back, rfl, opSymbol, spelledRight⟩ := cons_iff.mp spelledBehind
      exact .compare (derives left spelledLeft) (Token.of_symbol_sign opSymbol).2
        (derives right spelledRight)

/-! ## Errors of trees -/

/-- Stops that are about a name or an operation. -/
inductive Stop.Runtime : Stop → Prop where
  | undefined (name : Text) : Runtime (.failure (.undefined name))
  | operation (error : OperationError) : Runtime (.ofOperation error)

theorem Stop.Runtime.ne_structural {stop : Stop} (runtime : stop.Runtime) (problem : Structural)
    (token : Option Token) : stop ≠ .failure (.structural problem token) := by
  cases runtime with
  | undefined name => nofun
  | operation error => cases error <;> nofun

theorem operationValue_eq_error {result : Except OperationError Value} {stop : Stop}
    (stops : operationValue result = .error stop) : stop.Runtime := by
  cases result with
  | ok value => cases stops
  | error error =>
      cases stops
      exact .operation error

/-- Two operands and an operator stop for the reason of the first of them that has no value. -/
theorem operands_eq_error {left right : Except Stop Value}
    {operator : Expression.Operator} {stop : Stop}
    (runtimeLeft : ∀ stop, left = .error stop → stop.Runtime)
    (runtimeRight : ∀ stop, right = .error stop → stop.Runtime)
    (stops : (do let a ← left; let b ← right; operationValue (operator a b)) = .error stop) :
    stop.Runtime := by
  cases left with
  | error reason => exact runtimeLeft stop stops
  | ok a =>
      cases right with
      | error reason => exact runtimeRight stop stops
      | ok b => exact operationValue_eq_error stops

/-- A tree without a value has an error about a name or an operation. -/
theorem Expr.value_eq_error (bindings : Bindings) :
    ∀ {tier : Tier} (expr : Expr tier) (stop : Stop), expr.value bindings =
      .error stop → stop.Runtime
  | _, literal _, _, stops => by cases stops
  | _, var name, _, stops => by
      rw [value] at stops
      split at stops
      · cases stops
      · cases stops
        exact .undefined name
  | _, group body, stop, stops => value_eq_error bindings body stop stops
  | _, single operand, stop, stops => value_eq_error bindings operand stop stops
  | _, extend init _ operand, _, stops =>
      operands_eq_error (value_eq_error bindings init) (value_eq_error bindings operand) stops
  | _, uncompared sum, stop, stops => value_eq_error bindings sum stop stops
  | _, compare left _ right, _, stops =>
      operands_eq_error (value_eq_error bindings left) (value_eq_error bindings right) stops

/-! ## Places by their index -/

/-- Behind some tokens the cursor stands so many indices further. -/
theorem Cursor.past_atIndex {tokens ahead : List Token} :
    ∀ (passed : List Token) (index : Nat), tokens.drop index = passed ++ ahead →
      (⟨past (atIndex tokens index).last passed, ahead⟩ : Cursor) =
        atIndex tokens (index + passed.length)
  | [], index, parts => by
      show (⟨(atIndex tokens index).last, ahead⟩ : Cursor) =
        ⟨(atIndex tokens index).last, tokens.drop index⟩
      rw [parts, List.nil_append]
  | token :: passed, index, parts => by
      have here : tokens[index]? = some token := by
        rw [← List.head?_drop, parts]
        rfl
      have next : tokens.drop (index + 1) = passed ++ ahead := by
        rw [← List.drop_drop, parts]
        rfl
      have last : (atIndex tokens (index + 1)).last = some token := here
      rw [past_cons, ← last, past_atIndex passed (index + 1) next, List.length_cons,
        Nat.add_right_comm, Nat.add_assoc]

/-! ## The evaluator and the grammar -/

/-- Whether tokens of a kind stand between operands: logical, comparing, additive or
multiplicative ones. -/
def Token.Kind.isOperator (kind : Kind) : Bool := (Tier.chain .logic).continues kind

namespace Expression

variable {limit : Nat} {tokens : List Token} {start : Nat}

/-- Where evaluation succeeds, it has passed tokens that derive from the grammar, and gives the
value of their tree. -/
theorem derives_of_evaluate {bindings : Bindings} {value : Value} {after : Cursor}
    (succeeds : evaluate limit bindings (.atIndex tokens start) = .ok value after) :
    ∃ (stop : Nat) (formula : Formula), start ≤ stop ∧ stop ≤ tokens.length ∧
      after = .atIndex tokens stop ∧
      Derives (tokens.extract start stop) formula ∧ formula.value bindings = .ok value := by
  obtain ⟨formula, passed, spelled, -, valued, parts, isLast, -⟩ :=
    evaluate_eq_ok_iff.mp succeeds
  have place := Cursor.past_atIndex passed start parts
  rw [← isLast] at place
  have someTokens : passed ≠ [] := by
    rintro rfl
    exact formula.symbols_ne_nil spelled.symm
  have length := congrArg List.length parts
  have positive := List.length_pos_iff.mpr someTokens
  have inside : start + passed.length ≤ tokens.length := by
    rw [Cursor.atIndex, List.length_append, List.length_drop] at length
    omega
  have extracted : tokens.extract start (start + passed.length) = passed := by
    rw [List.extract_eq_take_drop, Nat.add_sub_cancel_left,
      show tokens.drop start = _ from parts, List.take_left]
  refine ⟨start + passed.length, formula, Nat.le_add_right _ _, inside, place, ?_, valued⟩
  rw [extracted]
  exact spelled.derives formula

/-- In front of tokens that derive from the grammar, and of no operator, evaluation does what
the tree does. -/
theorem evaluate_of_derives (bindings : Bindings) {stop : Nat} {formula : Formula}
    (ordered : start ≤ stop) (derived : Derives (tokens.extract start stop) formula)
    (inside : stop ≤ tokens.length) (shallow : formula.nesting ≤ limit)
    (ends : ∀ token, tokens[stop]? = some token → token.kind.isOperator = false) :
    Leads (evaluate limit bindings (.atIndex tokens start)) (formula.value bindings)
      (.ok · (.atIndex tokens stop)) := by
  have parts : tokens.drop start = tokens.extract start stop ++ tokens.drop stop := by
    rw [List.extract_eq_take_drop, ← Nat.add_sub_cancel' ordered, ← List.drop_drop,
      Nat.add_sub_cancel_left, List.take_append_drop]
  have length : start + (tokens.extract start stop).length = stop := by
    rw [List.extract_eq_take_drop, List.length_take, List.length_drop]
    omega
  have place := Cursor.past_atIndex _ start parts
  rw [length] at place
  have behind : formula.Ends (tokens.drop stop) := by
    intro token next
    rw [List.head?_drop] at next
    exact formula.continuedBy_eq_false (ends token next)
  have read :=
    evaluate_spelled bindings shallow derived.spells behind (Cursor.atIndex tokens start).last
  rw [place, ← parts] at read
  exact read

/-- **Evaluation follows the grammar.** Where it succeeds, the tokens it has passed derive from
the grammar, and its value is the value of their tree. In front of tokens that derive from the
grammar, with no operator behind them and with groups nested no deeper than the limit, it gives
the value of the tree right behind these tokens, or it stops with the error that is the first
one in the tree from left to right; and this error is never about the shape of the program. -/
theorem evaluate_follows_grammar (limit : Nat) (tokens : List Token) (start : Nat)
    (bindings : Bindings) :
    (∀ value after, evaluate limit bindings (.atIndex tokens start) = .ok value after →
      ∃ (stop : Nat) (formula : Formula), start ≤ stop ∧ stop ≤ tokens.length ∧
        after = .atIndex tokens stop ∧
        Derives (tokens.extract start stop) formula ∧ formula.value bindings = .ok value) ∧
    ∀ (stop : Nat) (formula : Formula), start ≤ stop → stop ≤ tokens.length →
      Derives (tokens.extract start stop) formula → formula.nesting ≤ limit →
      (∀ token, tokens[stop]? = some token → token.kind.isOperator = false) →
        (∀ value, formula.value bindings = .ok value →
          evaluate limit bindings (.atIndex tokens start) = .ok value (.atIndex tokens stop)) ∧
        (∀ error, formula.value bindings = .error error →
          (∃ after, evaluate limit bindings (.atIndex tokens start) = .error error after) ∧
            ∀ problem token, error ≠ .failure (.structural problem token)) := by
  refine ⟨fun value after => derives_of_evaluate,
    fun stop formula ordered inside derived shallow ends => ?_⟩
  have leads := evaluate_of_derives bindings ordered derived inside shallow ends
  refine ⟨fun value valued => ?_, fun error stops => ⟨?_, ?_⟩⟩
  · rw [valued] at leads
    exact leads
  · rw [stops] at leads
    exact leads
  · exact (formula.value_eq_error bindings error stops).ne_structural

/-- `x - 2 ^ 3 ^ 2 < (1)`, where the powers lean to the left and the comparison is the loosest
sign. -/
def comparedPowers : Formula :=
  let number (n : Int64) : Expr .primary := .literal (.int n)
  .single (.compare
    (.extend (.single (.single (.var "x"))) .minus
      (.extend (.extend (.single (number 2)) .power (number 3)) .power (number 2)))
    .lt (.single (.single (.group (.single (.uncompared (.single (.single (number 1)))))))))

/-- `1 / 0 + y`, where the division comes before the name. -/
def dividedByZero : Formula :=
  let number (n : Int64) : Expr .primary := .literal (.int n)
  .single (.uncompared (.extend (.single (.extend (.single (number 1)) .divide (number 0)))
    .plus (.single (.var "y"))))

/-- The tokens of an expression between two markers. -/
def markedTokens (formula : Formula) : List Token :=
  (.sign .marker :: (formula.symbols ++ [.sign .marker])).map Symbol.token

/-- With `x` being seventy, the first expression is compared to be false; the second one stops
at its division, although its name has no value either. -/
theorem evaluate_follows_grammar_powers :
    evaluate 200 [("x", .int 70)] (.atIndex (markedTokens comparedPowers) 1) =
      .ok (.boolean false) (.atIndex (markedTokens comparedPowers) 12) ∧
    (∃ (stop : Nat) (formula : Formula),
      Derives ((markedTokens comparedPowers).extract 1 stop) formula ∧
      formula.value [("x", .int 70)] = .ok (.boolean false)) ∧
    (∃ after, evaluate 200 [] (.atIndex (markedTokens dividedByZero) 1) =
      .error (.failure (.operation .divisionByZero)) after) := by
  obtain ⟨sound, complete⟩ :=
    evaluate_follows_grammar 200 (markedTokens comparedPowers) 1 [("x", .int 70)]
  obtain ⟨-, fails⟩ := evaluate_follows_grammar 200 (markedTokens dividedByZero) 1 []
  have derived : Derives ((markedTokens comparedPowers).extract 1 12) comparedPowers :=
    Spells.derives _ (by decide +kernel)
  have derivedDivision : Derives ((markedTokens dividedByZero).extract 1 6) dividedByZero :=
    Spells.derives _ (by decide +kernel)
  have evaluated :=
    (complete 12 comparedPowers (by decide) (by decide) derived (by decide)
      (by decide +kernel)).1 (.boolean false) rfl
  obtain ⟨stop, formula, -, -, -, passed, valued⟩ := sound _ _ evaluated
  have stopped := ((fails 6 dividedByZero (by decide) (by decide) derivedDivision (by decide)
    (by decide +kernel)).2 (.failure (.operation .divisionByZero)) rfl).1
  exact ⟨evaluated, ⟨stop, formula, passed, valued⟩, stopped⟩

end Expression

end ToonScript
