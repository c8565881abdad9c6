import ToonScript.Machine.Statement
import ToonScript.Token.Lexer

/-!
# Runs of a program

`Program.run` executes a list of tokens on a console and gives a report: the failure or the
returned value, the variables at the moment the run stopped, and the warnings. The report says
nothing about a run that asks for a remainder of an infinite dividend, or that uses up its
budget of steps; such a run has no report.
-/

set_option autoImplicit false

namespace ToonScript

/-- What is known after a run. A program that failed has no return value; the variables and the
warnings are those at the moment the run stopped. -/
structure Report where
  failure : Option Failure
  returnValue : Option Value
  bindings : Bindings
  warnings : List Text

/-- Whether the program came to its end. -/
def Report.succeeded (report : Report) : Bool := report.failure.isNone

/-- How a run ends: with a report, or without one at a remainder of an infinite dividend or when
the budget of steps is used up. -/
inductive Ending where
  | reported (report : Report)
  | undefinedRemainder
  | outOfSteps

namespace Program

/-- Leaves the start of a run in the trace: the number of tokens and the tokens themselves. -/
def announce (tokens : List Token) (console : Console) : Console :=
  tokens.foldl (fun console token => console.note (.token token))
    (console.note (.started tokens.length))

/-- The report of a machine that stopped. -/
def report (machine : Machine) (failure : Option Failure) : Report :=
  { failure
    returnValue := if failure.isSome then none else machine.returnValue
    bindings := machine.env.bindings
    warnings := machine.env.warnings }

/-- Runs a program with a budget of steps. The console after the run holds what was read,
written and traced. -/
def run (steps : Nat) (strict : Bool) (tokens : List Token) (console : Console) :
    Ending × Console :=
  match Exec.statements steps (Machine.start tokens strict (announce tokens console)) with
  | .ok () machine => (.reported (report machine none), machine.console.note .finished)
  | .error (.failure cause) machine =>
    (.reported (report machine (some cause)), machine.console.note (.failed cause))
  | .error .undefinedRemainder machine => (.undefinedRemainder, machine.console)
  | .error .outOfSteps machine => (.outOfSteps, machine.console)

/-- Runs a source text. -/
def runSource (steps : Nat) (strict : Bool) (source : String) (console : Console) :
    Ending × Console :=
  run steps strict (Token.ofSource source) console

/-- Runs the text of a program file, as it is read. -/
def runFile (steps : Nat) (strict : Bool) (content : String) (console : Console) :
    Ending × Console :=
  runSource steps strict (Text.unifyNewlines content) console

end Program

end ToonScript
