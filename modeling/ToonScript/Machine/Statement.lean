import ToonScript.Machine.Basic

/-!
# Statements

A statement stands between two markers and is executed while it is read. A branch that is not
taken and the rest of an interrupted block are passed over by finding the closing bracket; a
loop moves the cursor back to its condition and its body. Every loop and every conditional ends
with the word that also means leaving a loop.

Loops may run forever, so statements, blocks and loops take a budget of steps, which only bounds
the recursion: a computation that ends with some budget ends in the same way with every larger
one.
-/

set_option autoImplicit false

namespace ToonScript

open Token (Kind)

namespace Exec

/-- The ways to assign: a value as it is, or combined with the current one. -/
inductive Assignment where
  | plain
  | combined (op : ArithmeticOp)
deriving DecidableEq

/-- The way to assign that a token of a kind stands for. -/
def assignment? : Kind → Option Assignment
  | .assign => some .plain
  | .plusAssign => some (.combined .add)
  | .minusAssign => some (.combined .sub)
  | _ => none

/-- Prints the value of an expression in brackets. -/
def printStatement : Exec Unit := do
  pass
  expect .groupOpen "after 'tospik'"
  let value ← evaluate
  expect .groupClose "after print expression"
  write value.text

/-- Declares a variable with the value of an expression. -/
def declarationStatement : Exec Unit := do
  pass
  let name ← expectName "after 'keloğlan'"
  expect .assign ("after variable name " ++ name ++ " in declaration")
  let value ← evaluate
  declare name value
  note (.declared name value)

/-- The value that a variable is to be assigned, given the value of the expression. -/
def combine (name : Text) (operand : Value) : Assignment → Exec Value
  | .plain => pure operand
  | .combined op => do
    let current ← lookup name
    scan (Expression.operate (op.apply current operand))

/-- Assigns a variable in one of the ways, with the value of the expression at the cursor. -/
def assignTo (name : Text) (assignment : Assignment) : Exec Unit := do
  let operand ← evaluate
  let value ← combine name operand assignment
  assign name value
  note (.assigned name value)

/-- A statement that starts with an identifier: an assignment if an assignment sign follows,
otherwise an expression whose value is dropped. The variable has to be declared before the
expression is looked at. -/
def identifierStatement : Exec Unit := do
  let machine ← get
  match machine.cursor.rest with
  | target :: sign :: _ =>
    match assignment? sign.kind with
    | some assignment =>
      if machine.env.declares target.lexeme then
        pass
        pass
        assignTo target.lexeme assignment
      else fail (.undeclared target.lexeme)
    | none =>
      let _ ← evaluate
  | _ =>
    let _ ← evaluate

/-- Reads a line into a variable, whose type decides how the line is understood. -/
def inputStatement : Exec Unit := do
  pass
  expect .groupOpen "after 'marsupilami'"
  let name ← expectName "for input variable"
  expect .groupClose "after input variable"
  match (← get).env.bindings.get? name with
  | none => fail (.undeclaredInput name)
  | some current =>
    let line ← read
    match Value.ofInput current.ty line with
    | .error error => fail (.input name error)
    | .ok value =>
      assign name value
      note (.entered name value)

/-- Returns the value of an expression. -/
def returnStatement : Exec Unit := do
  pass
  let value ← evaluate
  modify fun machine =>
    { machine with returnValue := some value, flags := { machine.flags with returned := true } }
  note (.returned value)

/-- Leaves the loop. -/
def breakStatement : Exec Unit := do
  pass
  modify fun machine => { machine with flags := { machine.flags with broke := true } }
  note .broke

/-- Goes on with the next turn of the loop. -/
def continueStatement : Exec Unit := do
  pass
  modify fun machine => { machine with flags := { machine.flags with continued := true } }
  note .continued

/-- Passes over a block whose opener was just passed. -/
def skipBlock : Exec Unit := scan Scan.skipBlock

/-- Executes a block whose opener was just passed, or passes over it. -/
def branch (block : Exec Unit) (taken : Bool) : Exec Unit :=
  if taken then block else skipBlock

/-- The other branch of a conditional, if there is one. -/
def elseBranch (block : Exec Unit) (taken : Bool) : Exec Unit := do
  let machine ← get
  if machine.cursor.check (· == .elseKw) then
    pass
    expect .blockOpen "to open 'else' block"
    branch block taken
  else pure ()

/-- The branches of a conditional whose condition is known. -/
def branches (block : Exec Unit) : Value → Exec Unit
  | .boolean holds => do
    expect .blockOpen "to open 'if' block"
    note (.branched holds)
    branch block holds
    elseBranch block (!holds)
    expect .breakKw "after 'if'/'else' structure"
  | value => fail (.condition value.ty)

/-- Executes one of two blocks by a condition, where `block` executes a block whose opener was
just passed. -/
def conditionalStatement (block : Exec Unit) : Exec Unit := do
  pass
  expect .groupOpen "after 'döfenşimos'"
  let condition ← evaluate
  expect .groupClose "after 'if' condition"
  branches block condition

/-- Settles a break or a continue. -/
def settle : Exec Unit := modify fun machine => { machine with flags := machine.flags.settled }

/-- Finds the condition and the body of a loop, hands their places to `turns`, which gives the
number of turns, and goes on behind the loop. -/
def loopStatement (turns : Cursor → Cursor → Exec Nat) : Exec Unit := do
  pass
  expect .groupOpen "after 'pepe'"
  let condition := (← get).cursor
  let afterCondition ← scan (Scan.closing .groupOpen .groupClose "'while' condition")
  moveTo afterCondition
  expect .blockOpen "to open 'while' block"
  let body := (← get).cursor
  let after ← scan (Scan.closing .blockOpen .blockClose "'while' block")
  let iterations ← turns condition body
  note (.looped iterations)
  settle
  moveTo after
  expect .breakKw "after 'while' structure"

/-- The statement between two markers, by the kind of its first token. A block is executed by
`block`, the turns of a loop by `turns`. -/
def statementBody (block : Exec Unit) (turns : Cursor → Cursor → Exec Nat) : Exec Unit := do
  let machine ← get
  let next := machine.cursor.rest.head?
  match next.map Token.kind with
  | some .printKw => printStatement
  | some .varKw => declarationStatement
  | some .identifier => identifierStatement
  | some .ifKw => conditionalStatement block
  | some .whileKw => loopStatement turns
  | some .inputKw => inputStatement
  | some .returnKw => returnStatement
  | some .breakKw => breakStatement
  | some .continueKw => continueStatement
  | _ => fail (.structural .invalidStatement next)

mutual

/-- Executes the statement at the cursor. -/
def statement : Nat → Exec Unit
  | 0 => throw .outOfSteps
  | steps + 1 => do
    expect .marker "at start of statement"
    statementBody (block steps) fun condition body => turns steps condition body 0
    expect .marker "at end of statement"

/-- Executes the statements of a block whose opener was passed, up to its closer. When they are
interrupted, the rest of the block is passed over. -/
def block : Nat → Exec Unit
  | 0 => throw .outOfSteps
  | steps + 1 => do
    let machine ← get
    match machine.cursor.rest with
    | [] => fail (.structural .unclosedBlock none)
    | token :: _ =>
      if token.kind = .blockClose then pass
      else if machine.flags.interrupted then skipBlock
      else
        statement steps
        block steps

/-- Executes the turns of a loop from the one after the first `count`, and gives the number of
turns. -/
def turns : Nat → Cursor → Cursor → Nat → Exec Nat
  | 0, _, _, _ => throw .outOfSteps
  | steps + 1, condition, body, count => do
    settle
    moveTo condition
    let value ← evaluate
    expect .groupClose "after 'while' condition"
    match value with
    | .boolean true =>
      moveTo body
      block steps
      let flags := (← get).flags
      if flags.broke || flags.returned then pure (count + 1)
      else turns steps condition body (count + 1)
    | .boolean false => pure count
    | value =>
      note (.loopStopped value.ty)
      pure count

end

/-- Executes statements up to the end of the tokens or to an interruption. -/
def statements : Nat → Exec Unit
  | 0 => throw .outOfSteps
  | steps + 1 => do
    let machine ← get
    if machine.cursor.rest.isEmpty || machine.flags.interrupted then pure ()
    else
      statement steps
      statements steps

end Exec

end ToonScript
