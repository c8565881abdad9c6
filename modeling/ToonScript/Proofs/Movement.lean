import ToonScript.Proofs.Route
import ToonScript.Proofs.Tree.Printing

/-!
# Where the cursor goes

Two facts about the movement of the cursor, read off the routes.

Executing a block and skipping it lead to the same place (`block_ends_at_closer`): behind the
closer that the balance scan finds. So the body of a loop ends where the loop has set its
bookmark, turn after turn, and every executed statement spans a stretch that is balanced in the
brackets of blocks.

Where an expression or a statement ends does not depend on data
(`movement_independent_of_data`): two machines at the same place of the same program, with
whatever variables, flags and input, come to the same place if both succeed. One may take a
branch that the other skips, one may leave a loop that the other repeats.
-/

set_option autoImplicit false

namespace ToonScript

open Token (Kind)
open Relator (RightUnique)

/-! ## A route leads to one place -/

namespace Route

variable {route : Route} {routes : List Route}

theorem token_unique : RightUnique token := by
  rintro cursor ⟨last, rest⟩ ⟨last', rest'⟩ ⟨next, parts, isLast⟩ ⟨next', parts', isLast'⟩
  rw [parts] at parts'
  cases parts'
  cases isLast
  cases isLast'
  rfl

theorem kind_unique (wanted : Kind) : RightUnique (kind wanted) := by
  rintro cursor after after' ⟨next, parts, isLast, -⟩ ⟨next', parts', isLast', -⟩
  exact token_unique ⟨next, parts, isLast⟩ ⟨next', parts', isLast'⟩

theorem expression_unique : RightUnique expression := by
  rintro cursor after after' ⟨limit, bindings, value, evaluated⟩
    ⟨limit', bindings', value', evaluated'⟩
  exact Expression.evaluate_place_unique evaluated evaluated'

theorem block_unique : RightUnique block := by
  intro cursor after after' closed closed'
  rw [block] at closed closed'
  exact Option.some.inj (closed.symm.trans closed')

theorem nil_unique : RightUnique (along []) := by
  rintro cursor _ _ rfl rfl
  rfl

theorem cons_unique (unique : RightUnique route) (uniqueRest : RightUnique (along routes)) :
    RightUnique (along (route :: routes)) := by
  rintro cursor after after' ⟨middle, first, rest⟩ ⟨middle', first', rest'⟩
  obtain rfl := unique first first'
  exact uniqueRest rest rest'

/-- The brackets of a block and a route behind them. -/
theorem enclosed_unique (uniqueRest : RightUnique (along routes)) :
    RightUnique (along (kind .blockOpen :: block :: routes)) :=
  cons_unique (kind_unique _) (cons_unique block_unique uniqueRest)

/-- The brackets of a group, the expression in it and a route behind them. -/
theorem group_unique (uniqueRest : RightUnique (along routes)) :
    RightUnique (along (kind .groupOpen :: expression :: kind .groupClose :: routes)) :=
  cons_unique (kind_unique _)
    (cons_unique expression_unique (cons_unique (kind_unique _) uniqueRest))

theorem alternative_unique : RightUnique alternative := by
  intro cursor after after' leads leads'
  unfold alternative at leads leads'
  split at leads
  · next present =>
      rw [if_pos present] at leads'
      exact cons_unique token_unique (enclosed_unique nil_unique) leads leads'
  · next absent =>
      rw [if_neg absent] at leads'
      exact leads.symm.trans leads'

theorem assignment_unique : RightUnique assignment := by
  intro cursor after after' leads leads'
  unfold assignment at leads leads'
  split at leads
  · next shape =>
      rw [shape] at leads'
      simp only at leads'
      split at leads
      · next known =>
          rw [if_pos known] at leads'
          exact cons_unique token_unique
            (cons_unique token_unique (cons_unique expression_unique nil_unique)) leads leads'
      · next unknown =>
          rw [if_neg unknown] at leads'
          exact expression_unique leads leads'
  · next shape =>
      split at leads'
      · next shape' => exact absurd shape' (shape _ _ _)
      · exact expression_unique leads leads'

theorem steps_unique (first : Kind) : RightUnique (along (steps first)) := by
  have ending : RightUnique (along [kind .breakKw]) := cons_unique (kind_unique _) nil_unique
  cases first
  case printKw => exact cons_unique token_unique (group_unique nil_unique)
  case varKw =>
      exact cons_unique token_unique (cons_unique (kind_unique _) (cons_unique (kind_unique _)
        (cons_unique expression_unique nil_unique)))
  case identifier => exact cons_unique assignment_unique nil_unique
  case ifKw =>
      exact cons_unique token_unique
        (group_unique (enclosed_unique (cons_unique alternative_unique ending)))
  case whileKw => exact cons_unique token_unique (group_unique (enclosed_unique ending))
  case inputKw =>
      exact cons_unique token_unique (cons_unique (kind_unique _) (cons_unique (kind_unique _)
        (cons_unique (kind_unique _) nil_unique)))
  case returnKw => exact cons_unique token_unique (cons_unique expression_unique nil_unique)
  case breakKw => exact cons_unique token_unique nil_unique
  case continueKw => exact cons_unique token_unique nil_unique
  all_goals
    rintro cursor after after' ⟨_, never, -⟩ _
    exact never.elim

theorem body_unique : RightUnique body := by
  rintro cursor after after' ⟨next, ahead, leads⟩ ⟨next', ahead', leads'⟩
  obtain rfl : next = next' := Option.some.inj (ahead.symm.trans ahead')
  exact steps_unique next.kind leads leads'

theorem statement_unique : RightUnique statement :=
  cons_unique (kind_unique _) (cons_unique body_unique (cons_unique (kind_unique _) nil_unique))

end Route

/-! ## Blocks end at their closers -/

namespace Exec

/-- The part of a turn before its body: the value of the condition. -/
def testCondition (condition : Cursor) : Exec Value := do
  settle
  moveTo condition
  let value ← evaluate
  expect .groupClose "after 'while' condition"
  pure value

/-- A turn of a loop begins: the condition holds, and the cursor is moved to the body. -/
def TurnBegins (condition body : Cursor) (machine before : Machine) : Prop :=
  ∃ tested, testCondition condition machine = .ok (.boolean true) tested ∧
    { tested with cursor := body } = before

/-- The turn of a loop with a number, counted from zero, with a budget and from a machine,
executes the body from `before` to `after`. -/
inductive ExecutesBody (condition body : Cursor) :
    Nat → Nat → Machine → Machine → Machine → Prop where
  | now {steps : Nat} {machine before after : Machine}
      (begins : TurnBegins condition body machine before)
      (executed : block steps before = .ok () after) :
      ExecutesBody condition body (steps + 1) 0 machine before after
  | later {steps turn : Nat} {machine first middle before after : Machine}
      (begins : TurnBegins condition body machine first)
      (executed : block steps first = .ok () middle)
      (repeats : (middle.flags.broke || middle.flags.returned) = false)
      (rest : ExecutesBody condition body steps turn middle before after) :
      ExecutesBody condition body (steps + 1) (turn + 1) machine before after

/-- A body is executed as a block, from the place where it starts. -/
theorem ExecutesBody.exists_block {condition body : Cursor} {steps turn : Nat}
    {machine before after : Machine}
    (executes : ExecutesBody condition body steps turn machine before after) :
    before.cursor = body ∧ ∃ budget, block budget before = .ok () after := by
  induction executes with
  | now begins executed =>
      obtain ⟨tested, -, rfl⟩ := begins
      exact ⟨rfl, _, executed⟩
  | later _ _ _ _ ih => exact ih

/-- A loop that succeeds counts no more turns, or executes its body and is left, or executes it
and goes on. -/
theorem turns_eq_ok {steps count total : Nat} {condition body : Cursor}
    {machine after : Machine}
    (succeeds : turns (steps + 1) condition body count machine = .ok total after) :
    total = count ∨ ∃ before middle, TurnBegins condition body machine before ∧
      block steps before = .ok () middle ∧
        (total = count + 1 ∨ (middle.flags.broke || middle.flags.returned) = false ∧
          turns steps condition body (count + 1) middle = .ok total after) := by
  simp only [turns] at succeeds
  obtain ⟨_, _, settled, moves⟩ := bind_eq_ok.mp succeeds
  obtain ⟨_, _, moved, evaluates⟩ := bind_eq_ok.mp moves
  obtain ⟨value, _, valued, closes⟩ := bind_eq_ok.mp evaluates
  obtain ⟨_, tested, closed, continues⟩ := bind_eq_ok.mp closes
  have testing : testCondition condition machine = .ok value tested :=
    bind_eq_ok.mpr ⟨_, _, settled, bind_eq_ok.mpr ⟨_, _, moved, bind_eq_ok.mpr ⟨_, _, valued,
      bind_eq_ok.mpr ⟨_, _, closed, rfl⟩⟩⟩⟩
  split at continues
  · obtain ⟨_, before, entered, turnsOn⟩ := bind_eq_ok.mp continues
    obtain ⟨_, middle, executed, ended⟩ := bind_eq_ok.mp turnsOn
    cases entered
    refine .inr ⟨_, middle, ⟨tested, testing, rfl⟩, executed, ?_⟩
    rw [get_bind] at ended
    split at ended
    · exact .inl (pure_eq_ok.mp ended).1.symm
    · next repeats => exact .inr ⟨Bool.eq_false_iff.mpr repeats, ended⟩
  · exact .inl (pure_eq_ok.mp continues).1.symm
  · obtain ⟨_, _, -, ended⟩ := bind_eq_ok.mp continues
    exact .inl (pure_eq_ok.mp ended).1.symm

/-- A loop that succeeds executes its body in every turn that it counts. -/
theorem exists_executesBody {steps count total : Nat} {condition body : Cursor}
    {machine after : Machine}
    (succeeds : turns steps condition body count machine = .ok total after) {turn : Nat}
    (counted : count + turn < total) :
    ∃ before middle, ExecutesBody condition body steps turn machine before middle := by
  induction steps generalizing count turn machine with
  | zero => cases succeeds
  | succ steps ih =>
      obtain rfl | ⟨before, middle, begins, executed, left | ⟨repeats, continued⟩⟩ :=
        turns_eq_ok succeeds
      · omega
      · obtain rfl : turn = 0 := by omega
        exact ⟨before, middle, .now begins executed⟩
      · cases turn with
        | zero => exact ⟨before, middle, .now begins executed⟩
        | succ turn =>
            obtain ⟨before', middle', executes⟩ := @ih _ _ continued turn (by omega)
            exact ⟨before', middle', .later begins executed repeats executes⟩

/-- **Executing a block and skipping it lead to the same place.** Whatever the variables, the
input and the flags are, a block that is executed ends behind the closer that the balance scan
finds. So after every executed body of a loop the cursor is at the bookmark behind the body,
also if the loop fails in a later turn; a loop that succeeds executes its body as often as it
counts. Every executed statement spans a stretch that is balanced in the brackets of blocks. -/
theorem block_ends_at_closer :
    (∀ (steps : Nat) (machine after : Machine), block steps machine = .ok () after →
      machine.cursor.closing? .blockOpen .blockClose = some after.cursor ∧
        skipBlock machine = .ok () { machine with cursor := after.cursor }) ∧
    (∀ (condition body bodyEnd : Cursor) (steps : Nat) (machine : Machine),
      body.closing? .blockOpen .blockClose = some bodyEnd →
        (∀ turn before after, ExecutesBody condition body steps turn machine before after →
          after.cursor = bodyEnd) ∧
        ∀ count total after, turns steps condition body count machine = .ok total after →
          ∀ turn, count + turn < total →
            ∃ before middle, ExecutesBody condition body steps turn machine before middle) ∧
    (∀ (steps : Nat) (machine after : Machine), statement steps machine = .ok () after →
      ∃ span, machine.cursor.rest = span ++ after.cursor.rest ∧
        Balanced .blockOpen .blockClose span) := by
  refine ⟨?_, ?_, ?_⟩
  · intro steps machine after executed
    have closed := block_follows steps _ _ _ executed
    exact ⟨closed, skipBlock_eq_ok.mpr ⟨_, closed, rfl⟩⟩
  · intro condition body bodyEnd steps machine bookmark
    refine ⟨?_, fun count total after succeeds turn counted =>
      exists_executesBody succeeds counted⟩
    intro turn before after executes
    obtain ⟨rfl, budget, executed⟩ := executes.exists_block
    have closed := block_follows budget _ _ _ executed
    exact Option.some.inj (closed.symm.trans bookmark)
  · intro steps machine after executed
    exact Route.Balances.statement _ _ (statement_follows steps _ _ _ executed)

/-- A loop inside a block, and behind the block a word that no statement starts with. -/
def countingTokens : List Token :=
  List.map Symbol.token
    [.sign .marker, .sign .whileKw, .sign .groupOpen, .name "x", .sign .lessThan,
      .literal (.int 2), .sign .groupClose, .sign .blockOpen, .sign .marker, .name "x",
      .sign .plusAssign, .literal (.int 1), .sign .marker, .sign .blockClose, .sign .breakKw,
      .sign .marker, .sign .blockClose, .sign .unknown]

/-- A machine that has counted up to `x` and stands before a token of `countingTokens`. -/
def counting (x : Int64) (index : Nat) : Machine :=
  { cursor := .atIndex countingTokens index,
    env := { strict := false, bindings := [("x", .int x)] } }

theorem block_ends_at_closer_counting :
    (block 12 (counting 0 0) = .ok () (counting 2 17) ∧
      (counting 0 0).cursor.closing? .blockOpen .blockClose = some (counting 2 17).cursor) ∧
    (ExecutesBody (counting 0 3).cursor (counting 0 8).cursor 12 1 (counting 0 3) (counting 1 8)
        (counting 2 14) ∧
      (counting 2 14).cursor = .atIndex countingTokens 14 ∧
      ∃ before middle,
        ExecutesBody (counting 0 3).cursor (counting 0 8).cursor 12 1 (counting 0 3) before
          middle) ∧
    (statement 12 (counting 0 0) = .ok () (counting 2 16) ∧
      ∃ span, (counting 0 0).cursor.rest = span ++ (counting 2 16).cursor.rest ∧
        Balanced .blockOpen .blockClose span) := by
  obtain ⟨blocks, bodies, statements⟩ := block_ends_at_closer
  have executed : block 12 (counting 0 0) = .ok () (counting 2 17) := by decide +kernel
  have stated : statement 12 (counting 0 0) = .ok () (counting 2 16) := by decide +kernel
  have tested : testCondition (counting 0 3).cursor (counting 0 3) =
      .ok (.boolean true) (counting 0 7) := by
    decide +kernel
  have tested' : testCondition (counting 0 3).cursor (counting 1 14) =
      .ok (.boolean true) (counting 1 7) := by
    decide +kernel
  have first : block 11 (counting 0 8) = .ok () (counting 1 14) := by decide +kernel
  have second : block 10 (counting 1 8) = .ok () (counting 2 14) := by decide +kernel
  have twice : ExecutesBody (counting 0 3).cursor (counting 0 8).cursor 12 1 (counting 0 3)
      (counting 1 8) (counting 2 14) :=
    .later ⟨_, tested, rfl⟩ first rfl (.now ⟨_, tested', rfl⟩ second)
  have bookmark : (counting 0 8).cursor.closing? .blockOpen .blockClose =
      some (.atIndex countingTokens 14) := by
    decide +kernel
  have looped : turns 12 (counting 0 3).cursor (counting 0 8).cursor 0 (counting 0 3) =
      .ok 2 (counting 2 7) := by
    decide +kernel
  obtain ⟨ends, counts⟩ := bodies (counting 0 3).cursor _ _ 12 (counting 0 3) bookmark
  exact ⟨⟨executed, (blocks 12 _ _ executed).1⟩,
    ⟨twice, ends 1 _ _ twice, counts 0 2 _ looped 1 (by decide)⟩, stated,
    statements 12 _ _ stated⟩

/-! ## Movement does not depend on data -/

/-- **Where the cursor goes does not depend on data.** Two machines at the same place, which may
differ in everything else, come to the same place if both evaluate an expression, and if both
execute a statement. -/
theorem movement_independent_of_data :
    (∀ (machine machine' after after' : Machine) (value value' : Value),
      machine.cursor = machine'.cursor → evaluate machine = .ok value after →
      evaluate machine' = .ok value' after' → after.cursor = after'.cursor) ∧
    (∀ (steps steps' : Nat) (machine machine' after after' : Machine),
      machine.cursor = machine'.cursor → statement steps machine = .ok () after →
      statement steps' machine' = .ok () after' → after.cursor = after'.cursor) := by
  constructor
  · intro machine machine' after after' value value' same evaluated evaluated'
    have leads := Follows.evaluate _ _ _ evaluated
    rw [same] at leads
    exact Route.expression_unique leads (Follows.evaluate _ _ _ evaluated')
  · intro steps steps' machine machine' after after' same executed executed'
    have leads := statement_follows steps _ _ _ executed
    rw [same] at leads
    exact Route.statement_unique leads (statement_follows steps' _ _ _ executed')

/-- One machine runs the loop twice and the other not at all. -/
theorem movement_independent_of_data_counting :
    (evaluate (counting 0 3) = .ok (.boolean true) (counting 0 6) ∧
      evaluate (counting 5 3) = .ok (.boolean false) (counting 5 6) ∧
      (counting 0 6).cursor = (counting 5 6).cursor) ∧
    (statement 12 (counting 0 0) = .ok () (counting 2 16) ∧
      statement 5 (counting 5 0) = .ok () (counting 5 16) ∧
      (counting 2 16).cursor = (counting 5 16).cursor) := by
  obtain ⟨expressions, statements⟩ := movement_independent_of_data
  have less : evaluate (counting 0 3) = .ok (.boolean true) (counting 0 6) := by decide +kernel
  have notLess : evaluate (counting 5 3) = .ok (.boolean false) (counting 5 6) := by
    decide +kernel
  have twice : statement 12 (counting 0 0) = .ok () (counting 2 16) := by decide +kernel
  have never : statement 5 (counting 5 0) = .ok () (counting 5 16) := by decide +kernel
  exact ⟨⟨less, notLess, expressions (counting 0 3) (counting 5 3) _ _ _ _ rfl less notLess⟩,
    twice, never, statements 12 5 (counting 0 0) (counting 5 0) _ _ rfl twice never⟩

end Exec

end ToonScript
