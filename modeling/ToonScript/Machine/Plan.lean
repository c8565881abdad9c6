import ToonScript.Machine.Statement

/-!
# Plans

An execution maps a machine to a machine and does not say what happens on the way. A `Deed` is
one primitive computation of the machine. A `Plan` says which deed is done next, given what the
deeds before it gave, and `Plan.run` carries it out. Whoever has to watch an execution while it
goes on carries its plan out deed by deed.

Every statement of the machine has a plan here. Carrying it out is executing the statement, as
is proved in `ToonScript.Proofs.Plan`.
-/

set_option autoImplicit false

namespace ToonScript

open Token (Kind)

/-! ## Deeds -/

/-- A primitive computation of the machine. The first two change nothing: they tell where a
statement begins and where a block is entered. -/
inductive Deed where
  | beginStatement
  | enterBlock
  | pass
  | expect (kind : Kind) (context : Text)
  | expectName (context : Text)
  | skipBlock
  | closing (opener closer : Kind) (what : String)
  | moveTo (cursor : Cursor)
  | place
  | peek (offset : Nat)
  | evaluate
  | combine (name : Text) (operand : Value) (assignment : Exec.Assignment)
  | valueOf (name : Text)
  | declare (name : Text) (value : Value)
  | assign (name : Text) (value : Value)
  | read
  | write (value : Value)
  | note (event : Event)
  | giveBack (value : Value)
  | breakOff
  | goOn
  | settle
  | flags
deriving DecidableEq

namespace Deed

/-- What a deed gives when it succeeds. -/
abbrev Result : Deed → Type
  | expectName _ => Text
  | read => Text
  | closing _ _ _ | place => Cursor
  | peek _ => Option Token
  | evaluate | combine _ _ _ => Value
  | valueOf _ => Option Value
  | flags => Flags
  | _ => Unit

/-- Does a deed. -/
def perform : (deed : Deed) → Exec deed.Result
  | beginStatement | enterBlock => pure ()
  | pass => Exec.pass
  | expect kind context => Exec.expect kind context
  | expectName context => Exec.expectName context
  | skipBlock => Exec.skipBlock
  | closing opener closer what => Exec.scan (Scan.closing opener closer what)
  | moveTo cursor => Exec.moveTo cursor
  | place => do return (← get).cursor
  | peek offset => do return (← get).cursor.peek offset
  | evaluate => Exec.evaluate
  | combine name operand assignment => Exec.combine name operand assignment
  | valueOf name => do return (← get).env.bindings.get? name
  | declare name value => Exec.declare name value
  | assign name value => Exec.assign name value
  | read => Exec.read
  | write value => Exec.write value.text
  | note event => Exec.note event
  | giveBack value => modify fun machine =>
      { machine with
        returnValue := some value, flags := { machine.flags with returned := true } }
  | breakOff =>
      modify fun machine => { machine with flags := { machine.flags with broke := true } }
  | goOn =>
      modify fun machine => { machine with flags := { machine.flags with continued := true } }
  | settle => Exec.settle
  | flags => do return (← get).flags

end Deed

/-! ## Plans -/

/-- What is to be done: nothing more, to stop, or a deed and then something that depends on what
it gives. -/
inductive Plan (α : Type) where
  | done (result : α)
  | stop (reason : Stop)
  | act (deed : Deed) (next : deed.Result → Plan α)

namespace Plan

variable {α β : Type}

/-- A plan followed by another one. -/
protected def bind : Plan α → (α → Plan β) → Plan β
  | done result, next => next result
  | stop reason, _ => stop reason
  | act deed more, next => act deed fun result => (more result).bind next

instance : Monad Plan where
  pure := done
  bind := Plan.bind

/-- The plan of a single deed. -/
def perform (deed : Deed) : Plan deed.Result := act deed done

/-- Carries a plan out. -/
def run : Plan α → Exec α
  | done result => pure result
  | stop reason => throw reason
  | act deed next => deed.perform >>= fun result => (next result).run

/-! ## The plans of the statements -/

/-- The plan of `Exec.printStatement`. -/
def printStatement : Plan Unit := do
  perform .pass
  perform (.expect .groupOpen "after 'tospik'")
  let value ← perform .evaluate
  perform (.expect .groupClose "after print expression")
  perform (.write value)

/-- The plan of `Exec.declarationStatement`. -/
def declarationStatement : Plan Unit := do
  perform .pass
  let name ← perform (.expectName "after 'keloğlan'")
  perform (.expect .assign ("after variable name " ++ name ++ " in declaration"))
  let value ← perform .evaluate
  perform (.declare name value)
  perform (.note (.declared name value))

/-- The plan of `Exec.assignTo`. -/
def assignTo (name : Text) (assignment : Exec.Assignment) : Plan Unit := do
  let operand ← perform .evaluate
  let value ← perform (.combine name operand assignment)
  perform (.assign name value)
  perform (.note (.assigned name value))

/-- The plan of a statement that starts with an identifier and has an assignment sign behind it.
-/
def assignmentStatement (name : Text) (assignment : Exec.Assignment) : Plan Unit := do
  let current ← perform (.valueOf name)
  if current.isSome then
    perform .pass
    perform .pass
    assignTo name assignment
  else stop (.failure (.undeclared name))

/-- The plan of `Exec.identifierStatement`. -/
def identifierStatement : Plan Unit := do
  let target ← perform (.peek 0)
  let sign ← perform (.peek 1)
  match target, sign.bind fun sign => Exec.assignment? sign.kind with
  | some target, some assignment => assignmentStatement target.lexeme assignment
  | _, _ =>
    let _ ← perform .evaluate

/-- The plan of `Exec.inputStatement`. -/
def inputStatement : Plan Unit := do
  perform .pass
  perform (.expect .groupOpen "after 'marsupilami'")
  let name ← perform (.expectName "for input variable")
  perform (.expect .groupClose "after input variable")
  match ← perform (.valueOf name) with
  | none => stop (.failure (.undeclaredInput name))
  | some current =>
    let line ← perform .read
    match Value.ofInput current.ty line with
    | .error error => stop (.failure (.input name error))
    | .ok value =>
      perform (.assign name value)
      perform (.note (.entered name value))

/-- The plan of `Exec.returnStatement`. -/
def returnStatement : Plan Unit := do
  perform .pass
  let value ← perform .evaluate
  perform (.giveBack value)
  perform (.note (.returned value))

/-- The plan of `Exec.breakStatement`. -/
def breakStatement : Plan Unit := do
  perform .pass
  perform .breakOff
  perform (.note .broke)

/-- The plan of `Exec.continueStatement`. -/
def continueStatement : Plan Unit := do
  perform .pass
  perform .goOn
  perform (.note .continued)

/-- The plan of `Exec.branch`. -/
def branch (block : Plan Unit) (taken : Bool) : Plan Unit :=
  if taken then do
    perform .enterBlock
    block
  else perform .skipBlock

/-- The plan of `Exec.elseBranch`. -/
def elseBranch (block : Plan Unit) (taken : Bool) : Plan Unit := do
  let next ← perform (.peek 0)
  if next.map Token.kind = some .elseKw then
    perform .pass
    perform (.expect .blockOpen "to open 'else' block")
    branch block taken
  else pure ()

/-- The plan of `Exec.branches`. -/
def branches (block : Plan Unit) : Value → Plan Unit
  | .boolean holds => do
    perform (.expect .blockOpen "to open 'if' block")
    perform (.note (.branched holds))
    branch block holds
    elseBranch block (!holds)
    perform (.expect .breakKw "after 'if'/'else' structure")
  | value => stop (.failure (.condition value.ty))

/-- The plan of `Exec.conditionalStatement`. -/
def conditionalStatement (block : Plan Unit) : Plan Unit := do
  perform .pass
  perform (.expect .groupOpen "after 'döfenşimos'")
  let condition ← perform .evaluate
  perform (.expect .groupClose "after 'if' condition")
  branches block condition

/-- The part of the plan of a loop behind its condition. -/
def loopBody (turns : Cursor → Plan Nat) : Plan Unit := do
  perform (.expect .blockOpen "to open 'while' block")
  let body ← perform .place
  let after ← perform (.closing .blockOpen .blockClose "'while' block")
  let iterations ← turns body
  perform (.note (.looped iterations))
  perform .settle
  perform (.moveTo after)
  perform (.expect .breakKw "after 'while' structure")

/-- The plan of `Exec.loopStatement`. -/
def loopStatement (turns : Cursor → Cursor → Plan Nat) : Plan Unit := do
  perform .pass
  perform (.expect .groupOpen "after 'pepe'")
  let condition ← perform .place
  let afterCondition ← perform (.closing .groupOpen .groupClose "'while' condition")
  perform (.moveTo afterCondition)
  loopBody (turns condition)

/-- The plan of `Exec.statementBody`. -/
def statementBody (block : Plan Unit) (turns : Cursor → Cursor → Plan Nat) : Plan Unit := do
  let next ← perform (.peek 0)
  match next.map Token.kind with
  | some .printKw => printStatement
  | some .varKw => declarationStatement
  | some .identifier => identifierStatement
  | some .ifKw => conditionalStatement block
  | some .whileKw => loopStatement turns
  | some .inputKw => inputStatement
  | some .returnKw => returnStatement
  | some .breakKw => breakStatement
  | some .continueKw => continueStatement
  | _ => stop (.failure (.structural .invalidStatement next))

mutual

/-- The plan of `Exec.statement`. -/
def statement : Nat → Plan Unit
  | 0 => stop .outOfSteps
  | steps + 1 => do
    perform .beginStatement
    perform (.expect .marker "at start of statement")
    statementBody (block steps) fun condition body => turns steps condition body 0
    perform (.expect .marker "at end of statement")

/-- The plan of `Exec.block`. -/
def block : Nat → Plan Unit
  | 0 => stop .outOfSteps
  | steps + 1 => do
    match ← perform (.peek 0) with
    | none => stop (.failure (.structural .unclosedBlock none))
    | some token =>
      if token.kind = .blockClose then perform .pass
      else
        let flags ← perform .flags
        if flags.interrupted then perform .skipBlock
        else
          statement steps
          block steps

/-- The plan of `Exec.turns`. -/
def turns : Nat → Cursor → Cursor → Nat → Plan Nat
  | 0, _, _, _ => stop .outOfSteps
  | steps + 1, condition, body, count => do
    perform .settle
    perform (.moveTo condition)
    let value ← perform .evaluate
    perform (.expect .groupClose "after 'while' condition")
    match value with
    | .boolean true =>
      perform (.moveTo body)
      perform .enterBlock
      block steps
      let flags ← perform .flags
      if flags.broke || flags.returned then pure (count + 1)
      else turns steps condition body (count + 1)
    | .boolean false => pure count
    | value =>
      perform (.note (.loopStopped value.ty))
      pure count

end

/-- The plan of `Exec.statements`. -/
def statements : Nat → Plan Unit
  | 0 => stop .outOfSteps
  | steps + 1 => do
    let next ← perform (.peek 0)
    let flags ← perform .flags
    if next.isNone || flags.interrupted then pure ()
    else
      statement steps
      statements steps

end Plan

end ToonScript
