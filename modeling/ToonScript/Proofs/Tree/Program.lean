import ToonScript.Machine.Program
import ToonScript.Proofs.Tree.Expression

/-!
# Programs as trees

Statements are trees here, and a program is a list of statements. `Stmt.blockSymbols` writes a
program down.

What a tree does is said without places, flags and budgets. A world holds the variables with
their warnings, the input lines still to come and the lines written so far. A statement that
does not fail completes normally, or with a break, a continue or a return; `Runs` is the
relation between a statement or a block, the world before it and the result. A block ends with
the first statement that does not complete normally, a loop takes the break and the continue of
its body for itself, and its condition ends it when it is anything else than true.
-/

set_option autoImplicit false

namespace ToonScript

open Token (Kind)

/-! ## Trees -/

/-- Whether an expression starts with a name. -/
def Expr.leadsWithName {tier : Tier} (expr : Expr tier) : Bool :=
  match expr.symbols with
  | .name _ :: _ => true
  | _ => false

/-- The ways to assign a variable. -/
inductive Update where
  | set | increase | decrease
deriving DecidableEq, Repr

/-- The kind of the sign of a way to assign. -/
def Update.kind : Update → Kind
  | set => .assign
  | increase => .plusAssign
  | decrease => .minusAssign

/-- The statements that hold no block. An expression may stand alone if it starts with a name.
-/
inductive Action where
  | print (value : Formula)
  | declare (name : Text) (value : Formula)
  | assign (name : Text) (update : Update) (value : Formula)
  | discard (value : Formula) (named : value.leadsWithName = true)
  | input (name : Text)
  | giveBack (value : Formula)
  | breakOff
  | goOn

/-- The statements. -/
inductive Stmt where
  | act (action : Action)
  | choose (condition : Formula) (yes : List Stmt) (no : Option (List Stmt))
  | loop (condition : Formula) (body : List Stmt)

/-! ## Writing trees down -/

/-- A bracketed expression. -/
def Expr.bracketed {tier : Tier} (expr : Expr tier) : List Symbol :=
  .sign .groupOpen :: (expr.symbols ++ [.sign .groupClose])

/-- What stands between the markers of a statement without blocks. -/
def Action.symbols : Action → List Symbol
  | print value => .sign .printKw :: value.bracketed
  | declare name value => .sign .varKw :: .name name :: .sign .assign :: value.symbols
  | assign name update value => .name name :: .sign update.kind :: value.symbols
  | discard value _ => value.symbols
  | input name => [.sign .inputKw, .sign .groupOpen, .name name, .sign .groupClose]
  | giveBack value => .sign .returnKw :: value.symbols
  | breakOff => [.sign .breakKw]
  | goOn => [.sign .continueKw]

namespace Stmt

mutual

/-- What stands between the markers of a statement. -/
def symbols : Stmt → List Symbol
  | act action => action.symbols
  | choose condition yes no =>
    .sign .ifKw :: (condition.bracketed ++
      .sign .blockOpen :: (blockSymbols yes ++ .sign .blockClose ::
        (elseSymbols no ++ [.sign .breakKw])))
  | loop condition body =>
    .sign .whileKw :: (condition.bracketed ++
      .sign .blockOpen :: (blockSymbols body ++ [.sign .blockClose, .sign .breakKw]))

/-- Statements, each between its markers. -/
def blockSymbols : List Stmt → List Symbol
  | [] => []
  | stmt :: stmts => .sign .marker :: (stmt.symbols ++ .sign .marker :: blockSymbols stmts)

/-- The other branch of a conditional, if there is one. -/
def elseSymbols : Option (List Stmt) → List Symbol
  | none => []
  | some block =>
      .sign .elseKw :: .sign .blockOpen :: (blockSymbols block ++ [.sign .blockClose])

end

end Stmt

/-- How deep groups are nested in a statement without blocks. -/
def Action.nesting : Action → Nat
  | print value | declare _ value | assign _ _ value | discard value _ | giveBack value =>
      value.nesting
  | input _ | breakOff | goOn => 0

namespace Stmt

mutual

/-- How deep groups are nested in a statement. -/
def nesting : Stmt → Nat
  | act action => action.nesting
  | choose condition yes no => max condition.nesting (max (blockNesting yes) (elseNesting no))
  | loop condition body => max condition.nesting (blockNesting body)

/-- How deep groups are nested in a block. -/
def blockNesting : List Stmt → Nat
  | [] => 0
  | stmt :: stmts => max stmt.nesting (blockNesting stmts)

/-- How deep groups are nested in the other branch of a conditional. -/
def elseNesting : Option (List Stmt) → Nat
  | none => 0
  | some block => blockNesting block

end

theorem blockNesting_cons_le {stmt : Stmt} {stmts : List Stmt} {limit : Nat} :
    blockNesting (stmt :: stmts) ≤ limit ↔ stmt.nesting ≤ limit ∧
      blockNesting stmts ≤ limit := by
  rw [blockNesting, Nat.max_le]

end Stmt

/-! ## What trees do -/

/-- What a program has to do with: its variables and warnings, the lines still to be read, the
lines written. -/
structure World where
  env : Environment
  inputs : List Text
  output : List Text
deriving DecidableEq

/-- How a statement that does not fail completes. -/
inductive Completion where
  | normal
  | broke
  | continued
  | returned (value : Value)
deriving DecidableEq

/-- How a statement ends: it completes in a world, or it stops in one. -/
abbrev Outcome := EStateM.Result Stop World Completion

namespace World

/-- Evaluates an expression. -/
def evaluate (formula : Formula) : EStateM Stop World Value := fun world =>
  match formula.value world.env.bindings with
  | .ok value => .ok value world
  | .error stop => .error stop world

/-- Takes the value of an operator. -/
def operate (result : Except OperationError Value) : EStateM Stop World Value := fun world =>
  match operationValue result with
  | .ok value => .ok value world
  | .error stop => .error stop world

/-- Writes a line. -/
def write (line : Text) : EStateM Stop World Unit :=
  modify fun world => { world with output := world.output ++ [line] }

/-- Takes the next input line, which is empty when none is left. -/
def read : EStateM Stop World Text := fun world =>
  .ok (world.inputs.head?.getD "") { world with inputs := world.inputs.tail }

/-- Declares a variable. -/
def declare (name : Text) (value : Value) : EStateM Stop World Unit := fun world =>
  match world.env.declare name value with
  | .ok env => .ok () { world with env }
  | .error cause => .error (.failure cause) world

/-- Assigns a variable; a value of another type leaves a warning, or fails if types are strict.
-/
def assign (name : Text) (value : Value) : EStateM Stop World Unit := fun world =>
  match world.env.assign name value with
  | .ok (env, _) => .ok () { world with env }
  | .error cause => .error (.failure cause) world

end World

/-- The value that a variable is assigned. -/
def Update.apply (update : Update) (current operand : Value) : EStateM Stop World Value :=
  match update with
  | set => pure operand
  | increase => World.operate (ArithmeticOp.add.apply current operand)
  | decrease => World.operate (ArithmeticOp.sub.apply current operand)

/-- What a statement without blocks does. -/
def Action.perform : Action → EStateM Stop World Completion
  | print formula => do
    let value ← World.evaluate formula
    World.write value.text
    pure .normal
  | declare name formula => do
    let value ← World.evaluate formula
    World.declare name value
    pure .normal
  | assign name update formula => do
    match (← get).env.bindings.get? name with
    | none => throw (.failure (.undeclared name))
    | some current =>
      let operand ← World.evaluate formula
      let value ← update.apply current operand
      World.assign name value
      pure .normal
  | discard formula _ => do
    let _ ← World.evaluate formula
    pure .normal
  | input name => do
    match (← get).env.bindings.get? name with
    | none => throw (.failure (.undeclaredInput name))
    | some current =>
      let line ← World.read
      match Value.ofInput current.ty line with
      | .error error => throw (.failure (.input name error))
      | .ok value =>
        World.assign name value
        pure .normal
  | giveBack formula => do
    let value ← World.evaluate formula
    pure (.returned value)
  | breakOff => pure .broke
  | goOn => pure .continued

/-- What can be run: a statement or a block. -/
inductive Phrase where
  | stmt (stmt : Stmt)
  | block (stmts : List Stmt)

/-- **What a statement or a block does to a world.** -/
inductive Runs : Phrase → World → Outcome → Prop where
  | act {action : Action} {world : World} :
      Runs (.stmt (.act action)) world (action.perform world)
  | undecided {condition : Formula} {yes : List Stmt} {no : Option (List Stmt)}
      {world : World} {stop : Stop} (stops : condition.value world.env.bindings = .error stop) :
      Runs (.stmt (.choose condition yes no)) world (.error stop world)
  | neither {condition : Formula} {yes : List Stmt} {no : Option (List Stmt)} {world : World}
      {value : Value} (valued : condition.value world.env.bindings = .ok value)
      (other : ∀ holds, value ≠ .boolean holds) :
      Runs (.stmt (.choose condition yes no)) world
        (.error (.failure (.condition value.ty)) world)
  | yes {condition : Formula} {yes : List Stmt} {no : Option (List Stmt)} {world : World}
      {outcome : Outcome} (holds : condition.value world.env.bindings = .ok (.boolean true))
      (branch : Runs (.block yes) world outcome) :
      Runs (.stmt (.choose condition yes no)) world outcome
  | no {condition : Formula} {yes : List Stmt} {no : Option (List Stmt)} {world : World}
      {outcome : Outcome} (fails : condition.value world.env.bindings = .ok (.boolean false))
      (branch : Runs (.block (no.getD [])) world outcome) :
      Runs (.stmt (.choose condition yes no)) world outcome
  | loopUndecided {condition : Formula} {body : List Stmt} {world : World} {stop : Stop}
      (stops : condition.value world.env.bindings = .error stop) :
      Runs (.stmt (.loop condition body)) world (.error stop world)
  | loopEnds {condition : Formula} {body : List Stmt} {world : World} {value : Value}
      (valued : condition.value world.env.bindings = .ok value)
      (other : value ≠ .boolean true) :
      Runs (.stmt (.loop condition body)) world (.ok .normal world)
  | loopRepeats {condition : Formula} {body : List Stmt} {world after : World}
      {completion : Completion} {outcome : Outcome}
      (holds : condition.value world.env.bindings = .ok (.boolean true))
      (turn : Runs (.block body) world (.ok completion after))
      (goesOn : completion = .normal ∨ completion = .continued)
      (turns : Runs (.stmt (.loop condition body)) after outcome) :
      Runs (.stmt (.loop condition body)) world outcome
  | loopBreaks {condition : Formula} {body : List Stmt} {world after : World}
      (holds : condition.value world.env.bindings = .ok (.boolean true))
      (turn : Runs (.block body) world (.ok .broke after)) :
      Runs (.stmt (.loop condition body)) world (.ok .normal after)
  | loopReturns {condition : Formula} {body : List Stmt} {world after : World} {value : Value}
      (holds : condition.value world.env.bindings = .ok (.boolean true))
      (turn : Runs (.block body) world (.ok (.returned value) after)) :
      Runs (.stmt (.loop condition body)) world (.ok (.returned value) after)
  | loopStops {condition : Formula} {body : List Stmt} {world after : World} {stop : Stop}
      (holds : condition.value world.env.bindings = .ok (.boolean true))
      (turn : Runs (.block body) world (.error stop after)) :
      Runs (.stmt (.loop condition body)) world (.error stop after)
  | nil {world : World} : Runs (.block []) world (.ok .normal world)
  | cons {stmt : Stmt} {stmts : List Stmt} {world after : World} {outcome : Outcome}
      (first : Runs (.stmt stmt) world (.ok .normal after))
      (rest : Runs (.block stmts) after outcome) :
      Runs (.block (stmt :: stmts)) world outcome
  | interrupted {stmt : Stmt} {stmts : List Stmt} {world after : World}
      {completion : Completion} (first : Runs (.stmt stmt) world (.ok completion after))
      (abrupt : completion ≠ .normal) :
      Runs (.block (stmt :: stmts)) world (.ok completion after)
  | stopped {stmt : Stmt} {stmts : List Stmt} {world after : World} {stop : Stop}
      (first : Runs (.stmt stmt) world (.error stop after)) :
      Runs (.block (stmt :: stmts)) world (.error stop after)

end ToonScript
