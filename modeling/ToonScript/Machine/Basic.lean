import ToonScript.Machine.Console
import ToonScript.Machine.Expression

/-!
# The machine

The state of a run: the cursor, the environment, three flags that interrupt the statements of a
block, the value that the program returned, and the console. An `Exec` is a computation on this
state; when it stops, the state stays as it got to be.
-/

set_option autoImplicit false

namespace ToonScript

/-- The flags that interrupt a block: a return, a break and a continue have happened. -/
structure Flags where
  returned : Bool := false
  broke : Bool := false
  continued : Bool := false
deriving DecidableEq

/-- Whether the statements of a block are interrupted. -/
def Flags.interrupted (flags : Flags) : Bool := flags.returned || flags.broke || flags.continued

/-- The flags after a loop has dealt with a break or a continue. -/
def Flags.settled (flags : Flags) : Flags := { flags with broke := false, continued := false }

/-- The state of a run. -/
structure Machine where
  cursor : Cursor
  env : Environment
  flags : Flags := {}
  returnValue : Option Value := none
  console : Console := {}
deriving DecidableEq

/-- A computation on the state of a run. -/
abbrev Exec (α : Type) := EStateM Stop Machine α

namespace Machine

/-- The machine before a program. -/
def start (tokens : List Token) (strict : Bool) (console : Console) : Machine :=
  { cursor := .start tokens, env := { strict }, console }

end Machine

namespace Exec

/-- A computation on the cursor as one on the whole state. -/
def scan {α : Type} (computation : Scan α) : Exec α := fun machine =>
  match computation machine.cursor with
  | .ok value cursor => .ok value { machine with cursor }
  | .error stop cursor => .error stop { machine with cursor }

/-- Stops with a failure. -/
def fail {α : Type} (cause : Failure) : Exec α := throw (.failure cause)

/-- Passes the next token, of whatever kind. -/
def pass : Exec Unit := do
  let _ ← scan Scan.advance

/-- Passes the next token, which has to be of a kind. -/
def expect (kind : Token.Kind) (context : Text) : Exec Unit := do
  let _ ← scan (Scan.expect kind context)

/-- Passes the next token, which has to be an identifier, and gives its name. -/
def expectName (context : Text) : Exec Text := do
  return (← scan (Scan.expect .identifier context)).lexeme

/-- Moves the cursor to a place. -/
def moveTo (cursor : Cursor) : Exec Unit := modify fun machine => { machine with cursor }

/-- Evaluates the expression at the cursor. -/
def evaluate : Exec Value := do
  let machine ← get
  scan (Expression.evaluate machine.console.groupLimit machine.env.bindings)

/-- Leaves an event in the trace. -/
def note (event : Event) : Exec Unit :=
  modify fun machine => { machine with console := machine.console.note event }

/-- Writes a line. -/
def write (line : Text) : Exec Unit :=
  modify fun machine => { machine with console := machine.console.write line }

/-- Takes the next input line. -/
def read : Exec Text := modifyGet fun machine =>
  let (line, console) := machine.console.read
  (line, { machine with console })

/-- The value of a variable. -/
def lookup (name : Text) : Exec Value := do
  match (← get).env.lookup name with
  | .ok value => pure value
  | .error cause => fail cause

/-- Declares a variable. -/
def declare (name : Text) (value : Value) : Exec Unit := do
  match (← get).env.declare name value with
  | .ok env => modify fun machine => { machine with env }
  | .error cause => fail cause

/-- Assigns a variable; a mismatch is left in the trace. -/
def assign (name : Text) (value : Value) : Exec Unit := do
  match (← get).env.assign name value with
  | .error cause => fail cause
  | .ok (env, mismatch) =>
    modify fun machine => { machine with env }
    match mismatch with
    | some mismatch => note (.mismatched mismatch)
    | none => pure ()

end Exec

end ToonScript
