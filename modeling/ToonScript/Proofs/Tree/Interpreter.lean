import ToonScript.Proofs.Sequencing
import ToonScript.Proofs.Tree.Program

/-!
# An interpreter of trees

The relation `Runs` says what a tree does; `Stmt.exec` computes it, with a budget that bounds
the recursion. The budget is spent as the machine spends its own, so that the two can be
compared step by step. Here the interpreter is compared with the relation: it gives exactly the
outcomes of `Runs`, each with every budget that is large enough (`exec_runs`, `runs_exec`), and
no outcome of `Runs` is a used up budget (`Runs.settled`).
-/

set_option autoImplicit false

namespace ToonScript

namespace World

variable {formula : Formula} {world : World}

theorem evaluate_of_ok {value : Value} (valued : formula.value world.env.bindings = .ok value) :
    evaluate formula world = .ok value world := by
  simp only [evaluate, valued]

theorem evaluate_of_error {stop : Stop}
    (stops : formula.value world.env.bindings = .error stop) :
    evaluate formula world = .error stop world := by
  simp only [evaluate, stops]

end World

/-! ## The interpreter -/

namespace Stmt

mutual

/-- Runs a statement. -/
def exec : Nat → Stmt → EStateM Stop World Completion
  | 0, _ => throw .outOfSteps
  | _ + 1, act action => action.perform
  | steps + 1, choose condition yes no => do
    match ← World.evaluate condition with
    | .boolean true => execBlock steps yes
    | .boolean false => no.elim (pure .normal) fun block => execBlock steps block
    | value => throw (.failure (.condition value.ty))
  | steps + 1, loop condition body => execTurns steps condition body

/-- Runs a block up to the first statement that does not complete normally. -/
def execBlock : Nat → List Stmt → EStateM Stop World Completion
  | 0, _ => throw .outOfSteps
  | _ + 1, [] => pure .normal
  | steps + 1, stmt :: stmts => do
    match ← exec steps stmt with
    | .normal => execBlock steps stmts
    | completion => pure completion

/-- Runs the turns of a loop. -/
def execTurns : Nat → Formula → List Stmt → EStateM Stop World Completion
  | 0, _, _ => throw .outOfSteps
  | steps + 1, condition, body => do
    match ← World.evaluate condition with
    | .boolean true =>
      match ← execBlock steps body with
      | .normal | .continued => execTurns steps condition body
      | .broke => pure .normal
      | .returned value => pure (.returned value)
    | _ => pure .normal

end

/-! ## One step of the interpreter -/

variable {condition : Formula} {yes body : List Stmt} {no : Option (List Stmt)}
  {world after : World} {value : Value}

theorem exec_choose_of_error {stop : Stop}
    (stops : condition.value world.env.bindings = .error stop) (steps : Nat) :
    exec (steps + 1) (.choose condition yes no) world = .error stop world := by
  rw [exec, bind_of_error (World.evaluate_of_error stops)]

theorem exec_choose_of_true (holds : condition.value world.env.bindings = .ok (.boolean true))
    (steps : Nat) :
    exec (steps + 1) (.choose condition yes no) world = execBlock steps yes world := by
  rw [exec, bind_of_ok (World.evaluate_of_ok holds)]

theorem exec_choose_of_false (fails : condition.value world.env.bindings = .ok (.boolean false))
    (steps : Nat) :
    exec (steps + 1) (.choose condition yes no) world =
      (no.elim (pure .normal) fun block => execBlock steps block :
        EStateM Stop World Completion) world := by
  rw [exec, bind_of_ok (World.evaluate_of_ok fails)]

theorem exec_choose_of_other (valued : condition.value world.env.bindings = .ok value)
    (other : ∀ holds, value ≠ .boolean holds) (steps : Nat) :
    exec (steps + 1) (.choose condition yes no) world =
      .error (.failure (.condition value.ty)) world := by
  rw [exec, bind_of_ok (World.evaluate_of_ok valued)]
  cases value with
  | boolean holds => exact absurd rfl (other holds)
  | _ => rfl

theorem execTurns_of_error {stop : Stop}
    (stops : condition.value world.env.bindings = .error stop) (steps : Nat) :
    execTurns (steps + 1) condition body world = .error stop world := by
  rw [execTurns, bind_of_error (World.evaluate_of_error stops)]

theorem execTurns_of_other (valued : condition.value world.env.bindings = .ok value)
    (other : value ≠ .boolean true) (steps : Nat) :
    execTurns (steps + 1) condition body world = .ok .normal world := by
  rw [execTurns, bind_of_ok (World.evaluate_of_ok valued)]
  match value, other with
  | .boolean true, other => exact absurd rfl other
  | .boolean false, _ | .int _, _ | .float _, _ | .string _, _ | .char _, _ | .void,
    _ | .unknown, _ => rfl

/-- A turn whose body is run with some budget. -/
theorem execTurns_of_true (holds : condition.value world.env.bindings = .ok (.boolean true))
    (steps : Nat) :
    execTurns (steps + 1) condition body world =
      match execBlock steps body world with
      | .ok .normal after => execTurns steps condition body after
      | .ok .continued after => execTurns steps condition body after
      | .ok .broke after => .ok .normal after
      | .ok (.returned value) after => .ok (.returned value) after
      | .error stop after => .error stop after := by
  rw [execTurns, bind_of_ok (World.evaluate_of_ok holds)]
  cases turn : execBlock steps body world with
  | error stop after => exact bind_of_error turn
  | ok completion after =>
      dsimp only
      rw [bind_of_ok turn]
      cases completion <;> rfl

theorem execBlock_cons {stmt : Stmt} {stmts : List Stmt} (steps : Nat) :
    execBlock (steps + 1) (stmt :: stmts) world =
      match exec steps stmt world with
      | .ok .normal after => execBlock steps stmts after
      | .ok completion after => .ok completion after
      | .error stop after => .error stop after := by
  rw [execBlock]
  cases first : exec steps stmt world with
  | error stop after => exact bind_of_error first
  | ok completion after =>
      rw [bind_of_ok first]
      cases completion <;> rfl

end Stmt

/-! ## The interpreter gives what the relation says -/

/-- The budget was enough. -/
def Outcome.Settled (outcome : Outcome) : Prop := ∀ world, outcome ≠ .error .outOfSteps world

open Stmt (exec execBlock execTurns)

/-- The turns of a loop, from what a turn with less budget does. -/
theorem execTurns_runs {steps : Nat} {condition : Formula} {body : List Stmt}
    (runsBody : ∀ world, Outcome.Settled (execBlock steps body world) →
      Runs (.block body) world (execBlock steps body world))
    (runsTurns : ∀ world, Outcome.Settled (execTurns steps condition body world) →
      Runs (.stmt (.loop condition body)) world (execTurns steps condition body world))
    (world : World) (settled : Outcome.Settled (execTurns (steps + 1) condition body world)) :
    Runs (.stmt (.loop condition body)) world (execTurns (steps + 1) condition body world) := by
  cases valued : condition.value world.env.bindings with
  | error stop =>
      rw [Stmt.execTurns_of_error valued]
      exact .loopUndecided valued
  | ok value =>
      by_cases holds : value = .boolean true
      · subst holds
        rw [Stmt.execTurns_of_true valued] at settled ⊢
        have turn := runsBody world
        generalize execBlock steps body world = result at settled turn ⊢
        match result with
        | .ok .normal after =>
            exact .loopRepeats valued (turn nofun) (.inl rfl) (runsTurns after settled)
        | .ok .continued after =>
            exact .loopRepeats valued (turn nofun) (.inr rfl) (runsTurns after settled)
        | .ok .broke after => exact .loopBreaks valued (turn nofun)
        | .ok (.returned value) after => exact .loopReturns valued (turn nofun)
        | .error stop after => exact .loopStops valued (turn settled)
      · rw [Stmt.execTurns_of_other valued holds]
        exact .loopEnds valued holds

/-- **What the interpreter computes with enough budget, the tree does.** -/
theorem exec_runs (steps : Nat) :
    (∀ stmt world, Outcome.Settled (exec steps stmt world) →
      Runs (.stmt stmt) world (exec steps stmt world)) ∧
    (∀ stmts world, Outcome.Settled (execBlock steps stmts world) →
      Runs (.block stmts) world (execBlock steps stmts world)) ∧
    (∀ condition body world, Outcome.Settled (execTurns steps condition body world) →
      Runs (.stmt (.loop condition body)) world (execTurns steps condition body world)) := by
  induction steps with
  | zero =>
      refine ⟨fun stmt world settled => ?_, fun stmts world settled => ?_,
        fun condition body world settled => ?_⟩
      · rw [exec] at settled
        exact absurd rfl (settled world)
      · rw [execBlock] at settled
        exact absurd rfl (settled world)
      · rw [execTurns] at settled
        exact absurd rfl (settled world)
  | succ steps ih =>
      obtain ⟨runsStmt, runsBlock, runsTurns⟩ := ih
      refine ⟨?_, ?_,
        fun condition body => execTurns_runs (runsBlock body) (runsTurns condition body)⟩
      · intro stmt world settled
        cases stmt with
        | act action =>
            rw [exec]
            exact .act
        | loop condition body =>
            rw [exec] at settled ⊢
            exact runsTurns condition body world settled
        | choose condition yes no =>
            cases valued : condition.value world.env.bindings with
            | error stop =>
                rw [Stmt.exec_choose_of_error valued]
                exact .undecided valued
            | ok value =>
                match value with
                | .boolean true =>
                    rw [Stmt.exec_choose_of_true valued] at settled ⊢
                    exact .yes valued (runsBlock yes world settled)
                | .boolean false =>
                    rw [Stmt.exec_choose_of_false valued] at settled ⊢
                    refine .no valued ?_
                    cases no with
                    | none => exact .nil
                    | some other => exact runsBlock other world settled
                | .int _ | .float _ | .string _ | .char _ | .void | .unknown =>
                    rw [Stmt.exec_choose_of_other valued nofun]
                    exact .neither valued nofun
      · intro stmts world settled
        cases stmts with
        | nil =>
            rw [execBlock]
            exact .nil
        | cons stmt stmts =>
            rw [Stmt.execBlock_cons] at settled ⊢
            have first := runsStmt stmt world
            generalize exec steps stmt world = result at settled first ⊢
            match result with
            | .ok .normal after => exact .cons (first nofun) (runsBlock stmts after settled)
            | .ok .broke after => exact .interrupted (first nofun) nofun
            | .ok .continued after => exact .interrupted (first nofun) nofun
            | .ok (.returned value) after => exact .interrupted (first nofun) nofun
            | .error stop after => exact .stopped (first settled)

/-- Runs a statement or a block. -/
def Phrase.exec (steps : Nat) : Phrase → EStateM Stop World Completion
  | .stmt tree => tree.exec steps
  | .block trees => execBlock steps trees

/-- **What a tree does, the interpreter computes**, with every budget from some one on. -/
theorem runs_exec {phrase : Phrase} {world : World} {outcome : Outcome}
    (runs : Runs phrase world outcome) :
    ∃ least, ∀ steps, least ≤ steps → phrase.exec steps world = outcome := by
  -- A budget of a successor, as every rule needs one step for itself.
  have further {motive : Nat → Prop} {least : Nat} (holds : ∀ steps, least ≤ steps →
      motive (steps + 1)) : ∀ steps, least + 1 ≤ steps → motive steps := by
    intro steps enough
    obtain ⟨fewer, rfl⟩ : ∃ fewer, steps = fewer + 1 := ⟨steps - 1, by omega⟩
    exact holds fewer (by omega)
  induction runs with
  | act =>
      refine ⟨0 + 1, further fun steps _ => ?_⟩
      rw [Phrase.exec, exec]
  | undecided stops =>
      exact ⟨0 + 1, further fun steps _ => Stmt.exec_choose_of_error stops steps⟩
  | neither valued other =>
      exact ⟨0 + 1, further fun steps _ => Stmt.exec_choose_of_other valued other steps⟩
  | yes holds _ ih =>
      obtain ⟨least, same⟩ := ih
      refine ⟨least + 1, further fun steps enough => ?_⟩
      exact (Stmt.exec_choose_of_true holds steps).trans (same steps enough)
  | @no condition yes no world outcome fails branch ih =>
      obtain ⟨least, same⟩ := ih
      refine ⟨least + 1 + 1, further fun steps enough => ?_⟩
      refine (Stmt.exec_choose_of_false fails steps).trans ?_
      rw [← same steps (by omega)]
      obtain ⟨fewer, rfl⟩ : ∃ fewer, steps = fewer + 1 := ⟨steps - 1, by omega⟩
      cases no with
      | none =>
          rw [Phrase.exec, Option.getD_none, execBlock]
          rfl
      | some other => rfl
  | loopUndecided stops =>
      refine ⟨0 + 1 + 1, further (further fun steps _ => ?_)⟩
      rw [Phrase.exec, exec, Stmt.execTurns_of_error stops]
  | loopEnds valued other =>
      refine ⟨0 + 1 + 1, further (further fun steps _ => ?_)⟩
      rw [Phrase.exec, exec, Stmt.execTurns_of_other valued other]
  | loopRepeats holds _ goesOn _ ihTurn ihTurns =>
      obtain ⟨least, sameTurn⟩ := ihTurn
      obtain ⟨least', sameTurns⟩ := ihTurns
      refine ⟨max least least' + 1 + 1, further (further fun steps enough => ?_)⟩
      have turn := sameTurn steps (by omega)
      have turns := sameTurns (steps + 1) (by omega)
      rw [Phrase.exec] at turn
      rw [Phrase.exec, exec] at turns
      rw [Phrase.exec, exec, Stmt.execTurns_of_true holds, turn, ← turns]
      rcases goesOn with rfl | rfl <;> rfl
  | loopBreaks holds _ ih | loopReturns holds _ ih | loopStops holds _ ih =>
      obtain ⟨least, same⟩ := ih
      refine ⟨least + 1 + 1, further (further fun steps enough => ?_)⟩
      have turn := same steps (by omega)
      rw [Phrase.exec] at turn
      rw [Phrase.exec, exec, Stmt.execTurns_of_true holds, turn]
  | nil =>
      refine ⟨0 + 1, further fun steps _ => ?_⟩
      rw [Phrase.exec, execBlock]
      rfl
  | cons _ _ ihFirst ihRest =>
      obtain ⟨least, sameFirst⟩ := ihFirst
      obtain ⟨least', sameRest⟩ := ihRest
      refine ⟨max least least' + 1, further fun steps enough => ?_⟩
      have first := sameFirst steps (by omega)
      rw [Phrase.exec] at first
      rw [Phrase.exec, Stmt.execBlock_cons, first]
      exact sameRest steps (by omega)
  | @interrupted stmt stmts world after completion _ abrupt ih =>
      obtain ⟨least, same⟩ := ih
      refine ⟨least + 1, further fun steps enough => ?_⟩
      have first := same steps enough
      rw [Phrase.exec] at first
      rw [Phrase.exec, Stmt.execBlock_cons, first]
      cases completion with
      | normal => exact absurd rfl abrupt
      | broke | continued | returned value => rfl
  | stopped _ ih =>
      obtain ⟨least, same⟩ := ih
      refine ⟨least + 1, further fun steps enough => ?_⟩
      have first := same steps enough
      rw [Phrase.exec] at first
      rw [Phrase.exec, Stmt.execBlock_cons, first]

/-! ## Trees have no budget -/

theorem operationValue_ne_outOfSteps (result : Except OperationError Value) :
    operationValue result ≠ .error .outOfSteps := by
  cases result with
  | ok value => nofun
  | error error => cases error <;> nofun

/-- Two operands and an operator. -/
theorem operands_ne_outOfSteps {left right : Except Stop Value}
    (operator : Value → Value → Except OperationError Value)
    (leftFree : left ≠ .error .outOfSteps) (rightFree : right ≠ .error .outOfSteps) :
    (do let a ← left; let b ← right; operationValue (operator a b)) ≠ .error .outOfSteps := by
  cases left with
  | error stop => exact leftFree
  | ok a =>
      cases right with
      | error stop => exact rightFree
      | ok b => exact operationValue_ne_outOfSteps _

/-- The value of a tree is never a used up budget. -/
theorem Expr.value_ne_outOfSteps (bindings : Bindings) :
    ∀ {tier : Tier} (expr : Expr tier), expr.value bindings ≠ .error .outOfSteps
  | _, literal _ => nofun
  | _, var name => by
      rw [value]
      split <;> nofun
  | _, group body => value_ne_outOfSteps bindings body
  | _, single operand => value_ne_outOfSteps bindings operand
  | _, extend init sign operand =>
      operands_ne_outOfSteps sign.apply (value_ne_outOfSteps bindings init)
        (value_ne_outOfSteps bindings operand)
  | _, uncompared sum => value_ne_outOfSteps bindings sum
  | _, compare left op right =>
      operands_ne_outOfSteps op.apply (value_ne_outOfSteps bindings left)
        (value_ne_outOfSteps bindings right)

/-- A computation that never uses up a budget. -/
def World.Free {α : Type} (computation : EStateM Stop World α) : Prop :=
  ∀ world after, computation world ≠ .error .outOfSteps after

namespace World.Free

variable {α β : Type}

theorem bind {first : EStateM Stop World α} {next : α → EStateM Stop World β}
    (free : Free first) (freeNext : ∀ a, Free (next a)) : Free (first >>= next) := by
  intro world after spent
  obtain begun | ⟨a, middle, -, ended⟩ := bind_eq_error.mp spent
  · exact free world after begun
  · exact freeNext a middle after ended

theorem pure (a : α) : Free (pure a) := nofun

theorem failure (cause : Failure) :
    Free (throw (.failure cause) : EStateM Stop World α) := nofun

theorem get : Free get := nofun

theorem evaluate (formula : Formula) : Free (evaluate formula) := by
  intro world after spent
  unfold World.evaluate at spent
  split at spent
  · cases spent
  · next stops =>
      cases spent
      exact formula.value_ne_outOfSteps _ stops

theorem operate (result : Except OperationError Value) : Free (operate result) := by
  intro world after spent
  cases result with
  | ok value => cases spent
  | error error => cases error <;> cases spent

theorem declare (name : Text) (value : Value) : Free (declare name value) := by
  intro world after spent
  unfold World.declare at spent
  split at spent <;> cases spent

theorem assign (name : Text) (value : Value) : Free (assign name value) := by
  intro world after spent
  unfold World.assign at spent
  split at spent <;> cases spent

end World.Free

theorem Update.apply_free (update : Update) (current operand : Value) :
    World.Free (update.apply current operand) := by
  cases update with
  | set => exact .pure _
  | increase => exact .operate _
  | decrease => exact .operate _

theorem Action.perform_free (action : Action) : World.Free action.perform := by
  cases action with
  | print formula => exact .bind (.evaluate formula) fun _ => .bind nofun fun _ => .pure _
  | declare name formula =>
      exact .bind (.evaluate formula) fun _ => .bind (.declare _ _) fun _ => .pure _
  | assign name update formula =>
      refine .bind .get fun world => ?_
      split
      · exact .failure _
      · exact .bind (.evaluate formula) fun _ => .bind (update.apply_free _ _) fun _ =>
          .bind (.assign _ _) fun _ => .pure _
  | discard formula named => exact .bind (.evaluate formula) fun _ => .pure _
  | input name =>
      refine .bind .get fun world => ?_
      split
      · exact .failure _
      · refine .bind nofun fun line => ?_
        split
        · exact .failure _
        · exact .bind (.assign _ _) fun _ => .pure _
  | giveBack formula => exact .bind (.evaluate formula) fun _ => .pure _
  | breakOff => exact .pure _
  | goOn => exact .pure _

/-- No outcome of a tree is a used up budget. -/
theorem Runs.settled {phrase : Phrase} {world : World} {outcome : Outcome}
    (runs : Runs phrase world outcome) :
    outcome.Settled := by
  induction runs with
  | act => exact Action.perform_free _ _
  | undecided stops | loopUndecided stops =>
      intro after spent
      cases spent
      exact Expr.value_ne_outOfSteps _ _ stops
  | neither | loopEnds | nil => exact nofun
  | yes _ _ ih | no _ _ ih | loopRepeats _ _ _ _ _ ih | cons _ _ _ ih => exact ih
  | loopBreaks | loopReturns | interrupted => exact nofun
  | loopStops _ _ ih | stopped _ ih =>
      intro after spent
      cases spent
      exact ih _ rfl

end ToonScript
