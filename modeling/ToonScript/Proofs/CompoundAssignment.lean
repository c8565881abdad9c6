import ToonScript.Proofs.Grammar
import ToonScript.Proofs.Mirror

/-!
# Compound assignment

A compound assignment adds the value of an expression to a variable, or subtracts it. The same
can be written with a plain assignment, of a sum whose first operand is the variable and whose
second one is the expression as a group. The machine takes two ways: in the compound form it
evaluates the expression, then looks the variable up and applies the operator itself; written
out, it reads the variable first, and the sum applies the operator behind the group.

Both ways have the same effect (`Exec.statement_compound`). An assignment of any form has an
outcome that does not depend on where it stands: the machine after it, or the reason why there
is none (`Update.outcome`). A statement comes to this outcome and to the place behind it, or
stops with the machine as it was (`Exec.statement_effect`). And the two forms have the same
outcome (`Update.outcome_writtenOut`).
-/

set_option autoImplicit false

namespace ToonScript

open Token (Kind)

/-! ## Outcomes -/

/-- The machine after a variable was given a value, or the reason why it was not. -/
def Machine.assigned (machine : Machine) (name : Text) (value : Value) : Except Stop Machine :=
  match (do Exec.assign name value; Exec.note (.assigned name value) : Exec Unit) machine with
  | .ok () after => .ok after
  | .error stop _ => .error stop

namespace Update

/-- The value that a variable is to be assigned, given its current one and that of the
expression. -/
def value : Update → Value → Value → Except Stop Value
  | set, _, operand => .ok operand
  | increase, current, operand => operationValue (ArithmeticOp.add.apply current operand)
  | decrease, current, operand => operationValue (ArithmeticOp.sub.apply current operand)

/-- The outcome of an assignment. The variable has to be declared before the expression is
looked at. -/
def outcome (update : Update) (machine : Machine) (name : Text) (formula : Formula) :
    Except Stop Machine :=
  match machine.env.bindings.get? name with
  | none => .error (.failure (.undeclared name))
  | some current => do
    let operand ← formula.value machine.env.bindings
    let value ← update.value current operand
    machine.assigned name value

end Update

/-- A computation has an outcome: it comes to the machine of the outcome and to a given place,
or it stops for the reason of the outcome and has changed nothing but the place. -/
inductive Exec.Effect (machine : Machine) (cursor : Cursor) :
    Except Stop Machine → EStateM.Result Stop Machine Unit → Prop where
  | done (after : Machine) : Effect machine cursor (.ok after) (.ok () (after.move cursor))
  | stopped (stop : Stop) (place : Cursor) :
      Effect machine cursor (.error stop) (.error stop (machine.move place))

namespace Exec

variable {machine : Machine} {name : Text} {tokens ahead : List Token} {formula : Formula}
  {update : Update}

/-- Giving a variable a value has the same outcome at every place. -/
theorem assign_effect (machine : Machine) (name : Text) (value : Value) (cursor : Cursor) :
    Effect machine cursor (machine.assigned name value)
      ((do assign name value; note (.assigned name value) : Exec Unit)
        (machine.move cursor)) := by
  cases result : machine.env.assign name value with
  | error cause =>
      have refused : (machine.move cursor).env.assign name value = .error cause := result
      rw [Machine.assigned, bind_of_error (assign_of_error result),
        bind_of_error (assign_of_error refused)]
      exact .stopped _ _
  | ok assigned =>
      obtain ⟨env, mismatch⟩ := assigned
      have moved : (machine.move cursor).env.assign name value = .ok (env, mismatch) := result
      cases mismatch with
      | none =>
          rw [Machine.assigned, bind_of_ok (assign_of_agreeing result),
            bind_of_ok (assign_of_agreeing moved)]
          exact .done _
      | some mismatch =>
          rw [Machine.assigned, bind_of_ok (assign_of_mismatch result),
            bind_of_ok (assign_of_mismatch moved)]
          exact .done _

/-- The value that a declared variable is to be assigned is that of the update, or it is missing
for the same reason. -/
theorem combine_move {current operand : Value}
    (declared : machine.env.bindings.get? name = some current) (cursor : Cursor) :
    combine name operand (assignmentOf update) (machine.move cursor) =
      (ofExcept (update.value current operand) : Exec Value) (machine.move cursor) := by
  have found : lookup name (machine.move cursor) = .ok current (machine.move cursor) := by
    rw [lookup, get_bind, Environment.lookup,
      show (machine.move cursor).env = machine.env from rfl, declared]
    rfl
  have operated (op : ArithmeticOp) :
      combine name operand (.combined op) (machine.move cursor) =
      (ofExcept (operationValue (op.apply current operand)) : Exec Value)
        (machine.move cursor) := by
    rw [combine, bind_of_ok found]
    cases op.apply current operand <;> rfl
  cases update with
  | set => rfl
  | increase => exact operated .add
  | decrease => exact operated .sub

section Expression

variable (shallow : formula.nesting ≤ machine.console.groupLimit)
  (spelled : Spells tokens formula.symbols) (ends : formula.Ends ahead) (last : Option Token)

include shallow spelled ends

theorem evaluate_of_value {operand : Value}
    (valued : formula.value machine.env.bindings = .ok operand) :
    evaluate (machine.move ⟨last, tokens ++ ahead⟩) =
      .ok operand (machine.move ⟨Cursor.past last tokens, ahead⟩) := by
  have read := Expression.evaluate_spelled machine.env.bindings shallow spelled ends last
  rw [valued] at read
  exact (evaluate_eq _).trans (scan_of_ok read)

theorem evaluate_of_stop {stop : Stop}
    (valued : formula.value machine.env.bindings = .error stop) :
    ∃ place, evaluate (machine.move ⟨last, tokens ++ ahead⟩) =
      .error stop (machine.move place) := by
  have read := Expression.evaluate_spelled machine.env.bindings shallow spelled ends last
  rw [valued] at read
  obtain ⟨place, stops⟩ := read
  exact ⟨place, (evaluate_eq _).trans (scan_of_error stops)⟩

/-- A declared variable is assigned at the place behind the expression. -/
theorem assignTo_effect {current : Value}
    (declared : machine.env.bindings.get? name = some current) :
    Effect machine ⟨Cursor.past last tokens, ahead⟩ (update.outcome machine name formula)
      (assignTo name (assignmentOf update) (machine.move ⟨last, tokens ++ ahead⟩)) := by
  cases valued : formula.value machine.env.bindings with
  | error stop =>
      have outcome : update.outcome machine name formula = .error stop := by
        simp only [Update.outcome, declared, valued]
        rfl
      obtain ⟨place, stops⟩ := evaluate_of_stop shallow spelled ends last valued
      rw [outcome, assignTo, bind_of_error stops]
      exact .stopped stop place
  | ok operand =>
      have outcome : update.outcome machine name formula =
          update.value current operand >>= machine.assigned name := by
        simp only [Update.outcome, declared, valued]
        rfl
      have combined : combine name operand (assignmentOf update)
        (machine.move ⟨Cursor.past last tokens, ahead⟩) = _ :=
        combine_move declared _
      rw [outcome, assignTo, bind_of_ok (evaluate_of_value shallow spelled ends last valued)]
      cases computed : update.value current operand with
      | error stop =>
          rw [computed] at combined
          rw [bind_of_error combined]
          exact .stopped stop _
      | ok value =>
          rw [computed] at combined
          rw [bind_of_ok combined]
          exact assign_effect machine name value _

/-- An assignment, from its name on. -/
theorem identifierStatement_effect {target sign : Token} (assigns : sign.kind = update.kind) :
    Effect machine ⟨Cursor.past (some sign) tokens, ahead⟩
      (update.outcome machine target.lexeme formula)
      (identifierStatement (machine.move ⟨last, target :: sign :: (tokens ++ ahead)⟩)) := by
  have known : assignment? sign.kind = some (assignmentOf update) := by
    rw [assigns, assignment?_kind]
  rw [identifierStatement_of_some known, Environment.declares]
  cases declared : machine.env.bindings.get? target.lexeme with
  | none =>
      have outcome : update.outcome machine target.lexeme formula =
          .error (.failure (.undeclared target.lexeme)) := by
        simp only [Update.outcome, declared]
      rw [outcome]
      exact .stopped _ _
  | some current => exact assignTo_effect shallow spelled ends (some sign) declared

end Expression

/-- What follows a computation at the place that it comes to. -/
theorem Effect.followed {first next : Exec Unit} {cursor after : Cursor}
    {outcome : Except Stop Machine} {start : Machine}
    (effect : Effect machine cursor outcome (first start))
    (moves : ∀ machine : Machine, next (machine.move cursor) = .ok () (machine.move after)) :
    Effect machine after outcome ((do first; next : Exec Unit) start) := by
  generalize begun : first start = result at effect
  cases effect with
  | done done =>
      rw [bind_of_ok begun, moves]
      exact .done done
  | stopped stop place =>
      rw [bind_of_error begun]
      exact .stopped stop place

/-- A statement that assigns comes to the outcome of the assignment and to the place behind the
statement, or stops for the reason of the outcome with the machine as it was. -/
theorem statement_effect {machine : Machine}
    (shallow : formula.nesting ≤ machine.console.groupLimit) (spelled : Spells tokens
      (.sign .marker :: .name name :: .sign update.kind ::
        (formula.symbols ++ [.sign .marker])))
    (steps : Nat) (last : Option Token) (ahead : List Token) :
    Effect machine ⟨Cursor.past last tokens, ahead⟩ (update.outcome machine name formula)
      (statement (steps + 1) (machine.move ⟨last, tokens ++ ahead⟩)) := by
  obtain ⟨opening, _, rfl, opens, spelledName⟩ := Spells.cons_iff.mp spelled
  obtain ⟨target, _, rfl, named, spelledSign⟩ := Spells.cons_iff.mp spelledName
  obtain ⟨sign, _, rfl, assigns, spelledInner⟩ := Spells.cons_iff.mp spelledSign
  obtain ⟨inner, back, rfl, spelledFormula, spelledBack⟩ := Spells.append_iff.mp spelledInner
  obtain ⟨closing, _, rfl, closes, spelledNothing⟩ := Spells.cons_iff.mp spelledBack
  obtain rfl := Spells.nil_iff.mp spelledNothing
  obtain ⟨-, identifier, rfl⟩ := Token.of_symbol_name named
  have isMarker := (Token.of_symbol_sign closes).2
  have body : Effect machine ⟨Cursor.past (some sign) inner, closing :: ahead⟩
      (update.outcome machine target.lexeme formula)
      (statementBody (block steps) (fun condition body => turns steps condition body 0)
        (machine.move ⟨some opening, target :: sign :: (inner ++ closing :: ahead)⟩)) := by
    rw [statementBody_move, bodyOf, identifier]
    exact identifierStatement_effect shallow spelledFormula
      (formula.ends_of_continues ahead isMarker rfl) _ (Token.of_symbol_sign assigns).2
  simp only [List.cons_append, List.append_assoc, List.nil_append, Cursor.past_cons,
    Cursor.past_append, Cursor.past_nil]
  rw [statement, bind_of_ok (expect_move (Token.of_symbol_sign opens).2 _)]
  exact body.followed fun _ => expect_move isMarker _

end Exec

/-! ## Written out -/

/-- The way to assign that combines with an operator of a sum. -/
def Update.ofSign : Sign .sum → Update
  | .plus => .increase
  | .minus => .decrease

theorem Update.value_ofSign (sign : Sign .sum) (current operand : Value) :
    (ofSign sign).value current operand = operationValue (sign.apply current operand) := by
  cases sign <;> rfl

/-- A sum of a variable and an expression as a group. -/
def Formula.writtenOut (name : Text) (sign : Sign .sum) (formula : Formula) : Formula :=
  .single (.uncompared (.extend (.single (.single (.var name))) sign
    (.single (.group formula))))

theorem Formula.nesting_writtenOut (name : Text) (sign : Sign .sum) (formula : Formula) :
    (writtenOut name sign formula).nesting = formula.nesting + 1 :=
  Nat.zero_max _

/-- A chain whose first part has a value goes on with its last operand. -/
theorem Expr.value_extend_of_first {bindings : Bindings} {level : Level}
    {init : Expr (.chain level)} {left : Value} (first : init.value bindings = .ok left)
    (sign : Sign level) (operand : Expr level.operand) :
    (Expr.extend init sign operand).value bindings =
      operand.value bindings >>= fun right => operationValue (sign.apply left right) := by
  rw [Expr.value, first]
  rfl

theorem Formula.value_writtenOut {bindings : Bindings} {name : Text} {current : Value}
    (declared : bindings.get? name = some current) (sign : Sign .sum) (formula : Formula) :
    (writtenOut name sign formula).value bindings =
      formula.value bindings >>= fun operand =>
        operationValue (sign.apply current operand) := by
  have first : (Expr.single (.single (.var name)) : Expr (.chain .sum)).value bindings =
      .ok current := by
    simp only [Expr.value, declared]
  exact Expr.value_extend_of_first first sign _

/-- The two forms have the same outcome. The compound one looks the variable up behind the
expression and the other one in front of it, which makes no difference, because a variable that
is assigned has to be declared. -/
theorem Update.outcome_writtenOut (machine : Machine) (name : Text) (sign : Sign .sum)
    (formula : Formula) :
    set.outcome machine name (.writtenOut name sign formula) =
      (ofSign sign).outcome machine name formula := by
  rw [outcome, outcome]
  cases declared : machine.env.bindings.get? name with
  | none => rfl
  | some current =>
      simp only [Formula.value_writtenOut declared, value_ofSign, bind_assoc]
      rfl

theorem Update.value_ne_outOfSteps (update : Update) (current operand : Value) :
    update.value current operand ≠ .error .outOfSteps := by
  cases update with
  | set => nofun
  | increase | decrease => exact operationValue_ne_outOfSteps _

theorem Machine.assigned_ne_outOfSteps (machine : Machine) (name : Text) (value : Value) :
    machine.assigned name value ≠ .error .outOfSteps := by
  intro stops
  have effect := Exec.assign_effect machine name value machine.cursor
  rw [stops] at effect
  generalize ran : (do Exec.assign name value; Exec.note (.assigned name value) : Exec Unit) _ =
    result at effect
  cases effect with
  | stopped _ place =>
      obtain refused | ⟨_, _, -, noted⟩ := bind_eq_error.mp ran
      · obtain ⟨undeclared | ⟨old, mismatch⟩, -⟩ := Exec.assign_eq_error refused
        · cases undeclared
        · cases mismatch
      · cases noted

/-- No assignment uses up the budget of steps. -/
theorem Update.outcome_ne_outOfSteps (update : Update) (machine : Machine) (name : Text)
    (formula : Formula) : update.outcome machine name formula ≠ .error .outOfSteps := by
  rw [outcome]
  cases machine.env.bindings.get? name with
  | none => nofun
  | some current =>
      cases valued : formula.value machine.env.bindings with
      | error stop =>
          rintro ⟨⟩
          exact formula.value_ne_outOfSteps _ valued
      | ok operand =>
          show (update.value current operand >>= machine.assigned name) ≠ .error .outOfSteps
          cases computed : update.value current operand with
          | error stop =>
              rintro ⟨⟩
              exact update.value_ne_outOfSteps _ _ computed
          | ok value => exact machine.assigned_ne_outOfSteps name value

namespace Exec

/-- **Compound assignment is sugar.** Take a variable, tokens that derive an expression from the
grammar, with its groups nested below the limit, and a sign of a sum. A statement that assigns
with the sign, and one that assigns the sum of the variable and of the expression as a group,
have the same effect on every machine: both succeed, come to the place behind the statement, and
leave the same machine except for this place; or both stop for the same reason, and have changed
nothing but the place. -/
theorem statement_compound {name : Text} {inner compound plain : List Token} {formula : Formula}
    (sign : Sign .sum) (derived : Derives inner formula) {machine : Machine}
    (shallow : formula.nesting < machine.console.groupLimit)
    (spelled : Spells compound
      (.sign .marker :: .name name :: .sign (Update.ofSign sign).kind ::
        (inner.map Token.symbol ++ [.sign .marker])))
    (spelledPlain : Spells plain
      (.sign .marker :: .name name :: .sign .assign :: .name name :: .sign sign.kind ::
        .sign .groupOpen :: (inner.map Token.symbol ++ [.sign .groupClose, .sign .marker])))
    (steps steps' : Nat) (last last' : Option Token) (ahead ahead' : List Token) :
    (∃ after : Machine,
      statement (steps + 1) (machine.move ⟨last, compound ++ ahead⟩) =
        .ok () (after.move ⟨Cursor.past last compound, ahead⟩) ∧
      statement (steps' + 1) (machine.move ⟨last', plain ++ ahead'⟩) =
        .ok () (after.move ⟨Cursor.past last' plain, ahead'⟩)) ∨
    ∃ reason place place', reason ≠ .outOfSteps ∧
      statement (steps + 1) (machine.move ⟨last, compound ++ ahead⟩) =
        .error reason (machine.move place) ∧
      statement (steps' + 1) (machine.move ⟨last', plain ++ ahead'⟩) =
        .error reason (machine.move place') := by
  have symbols : inner.map Token.symbol = formula.symbols := derived.spells
  rw [symbols] at spelled spelledPlain
  have written : Spells plain (.sign .marker :: .name name :: .sign Update.set.kind ::
      ((Formula.writtenOut name sign formula).symbols ++ [.sign .marker])) := by
    simpa [Formula.writtenOut, Expr.symbols, Update.kind] using spelledPlain
  have effect := statement_effect (Nat.le_of_lt shallow) spelled steps last ahead
  have shallowPlain : (Formula.writtenOut name sign formula).nesting ≤
      machine.console.groupLimit := by
    rw [Formula.nesting_writtenOut]
    exact shallow
  have effectPlain := statement_effect shallowPlain written steps' last' ahead'
  rw [Update.outcome_writtenOut] at effectPlain
  have ends := Update.outcome_ne_outOfSteps (.ofSign sign) machine name formula
  generalize (Update.ofSign sign).outcome machine name formula =
    outcome at effect effectPlain ends
  generalize statement (steps + 1) (machine.move ⟨last, compound ++ ahead⟩) = result at effect ⊢
  generalize statement (steps' + 1) (machine.move ⟨last', plain ++ ahead'⟩) =
    resultPlain at effectPlain ⊢
  cases effect with
  | done after =>
      cases effectPlain
      exact .inl ⟨after, rfl, rfl⟩
  | stopped reason place =>
      cases effectPlain with
      | stopped _ placePlain =>
          exact .inr ⟨reason, place, placePlain, fun used => ends (congrArg _ used), rfl, rfl⟩

/-- `y - 1`, which has to be a group where it is subtracted. -/
def lessOne : Formula :=
  .single (.uncompared (.extend (.single (.single (.var "y"))) .minus
    (.single (.literal (.int 1)))))

/-- The tokens of `lessOne`. -/
def lessOneTokens : List Token := lessOne.symbols.map Symbol.token

/-- A statement that decreases `x` by `lessOne`. -/
def decreasing : List Token :=
  (.sign .marker :: .name "x" :: .sign .minusAssign ::
    (lessOneTokens.map Token.symbol ++ [.sign .marker])).map Symbol.token

/-- A statement that assigns `x` the difference of `x` and of `lessOne` as a group. -/
def subtracting : List Token :=
  (.sign .marker :: .name "x" :: .sign .assign :: .name "x" :: .sign .minus ::
    .sign .groupOpen ::
    (lessOneTokens.map Token.symbol ++ [.sign .groupClose, .sign .marker])).map Symbol.token

/-- A machine that holds two numbers, under strict types. -/
def strictMachine : Machine where
  cursor := .start []
  env := { strict := true, bindings := [("x", .int 7), ("y", .float 3.5)] }

/-- The difference is a double, which is no mismatch. -/
theorem statement_compound_decreasing :
    Derives lessOneTokens lessOne ∧ lessOne.nesting < strictMachine.console.groupLimit ∧
    ∃ after : Machine, after.env.bindings =
      ([("x", .float 4.5), ("y", .float 3.5)] : Bindings) ∧
      statement 1 (strictMachine.move ⟨none, decreasing ++ []⟩) =
        .ok () (after.move ⟨Cursor.past none decreasing, []⟩) ∧
      statement 1 (strictMachine.move ⟨none, subtracting ++ []⟩) =
        .ok () (after.move ⟨Cursor.past none subtracting, []⟩) := by
  have derived : Derives lessOneTokens lessOne := Spells.derives _ (by decide +kernel)
  have shallow : lessOne.nesting < strictMachine.console.groupLimit := by decide
  refine ⟨derived, shallow, ?_⟩
  have ran : statement 1 (strictMachine.move ⟨none, decreasing ++ []⟩) =
      .ok () { strictMachine with
        cursor := ⟨Cursor.past none decreasing, []⟩
        env := { strict := true, bindings := [("x", .float 4.5), ("y", .float 3.5)] } } := by
    decide +kernel
  have spelled : Spells decreasing
      (.sign .marker :: .name "x" :: .sign .minusAssign ::
        (lessOneTokens.map Token.symbol ++ [.sign .marker])) := by
    decide +kernel
  have spelledPlain : Spells subtracting
      (.sign .marker :: .name "x" :: .sign .assign :: .name "x" :: .sign .minus ::
        .sign .groupOpen ::
        (lessOneTokens.map Token.symbol ++ [.sign .groupClose, .sign .marker])) := by
    decide +kernel
  rcases statement_compound .minus derived shallow spelled spelledPlain 0 0 none none [] [] with
    ⟨after, compound, plain⟩ | ⟨reason, place, placePlain, -, stopped, -⟩
  · obtain ⟨-, same⟩ := EStateM.Result.ok.inj (ran.symm.trans compound)
    exact ⟨after, congrArg (·.env.bindings) same.symm, compound, plain⟩
  · cases ran.symm.trans stopped

end Exec

end ToonScript
