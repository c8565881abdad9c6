import ToonScript.Machine.Plan
import ToonScript.Machine.Program

/-!
# Traces in files

A file can hold only what has an encoding. When the trace of a run is kept in a file and a
message has none, nothing of the message is written and the run is left at this event: it comes
to no ending, and what it has printed, read and traced so far is all that it does.

`Program.runToFile` is such a run. It carries the plan of the program out and asks the file
before every deed that leaves an event.
-/

set_option autoImplicit false

namespace ToonScript

/-- A computation that may be left at an event which the file of the trace does not take, with
the console before the event. -/
abbrev Filing (α : Type) := Except (Event × Console) α

namespace Console

/-- Whether the file of the trace takes an event: it is not kept at all, or its message has an
encoding. -/
def admits (console : Console) (event : Event) : Bool :=
  console.verbosity < event.level || event.message.encodable

/-- Leaves an event in the file of the trace. -/
def file (console : Console) (event : Event) : Filing Console :=
  if console.admits event then .ok (console.note event) else .error (event, console)

end Console

namespace Deed

/-- The event that a deed leaves in the trace, if it leaves one. -/
def event? (machine : Machine) : Deed → Option Event
  | note event => some event
  | assign name value =>
    match machine.env.assign name value with
    | .ok (_, mismatch) => mismatch.map .mismatched
    | .error _ => none
  | _ => none

/-- Does a deed, if the file of the trace takes the event that it leaves. -/
def performToFile (deed : Deed) (machine : Machine) :
    Filing (EStateM.Result Stop Machine deed.Result) :=
  match deed.event? machine with
  | some event =>
    if machine.console.admits event then .ok (deed.perform machine)
    else .error (event, machine.console)
  | none => .ok (deed.perform machine)

end Deed

/-- Carries a plan out with its trace in a file. -/
def Plan.runToFile {α : Type} : Plan α → Machine → Filing (EStateM.Result Stop Machine α)
  | done result, machine => .ok (.ok result machine)
  | stop reason, machine => .ok (.error reason machine)
  | act deed next, machine => do
    match ← deed.performToFile machine with
    | .ok result after => (next result).runToFile after
    | .error reason after => .ok (.error reason after)

namespace Program

/-- Leaves the start of a run in the file of the trace. -/
def announceToFile (tokens : List Token) (console : Console) : Filing Console := do
  let begun ← console.file (.started tokens.length)
  tokens.foldlM (fun console token => console.file (.token token)) begun

/-- The ending of a run, left in the file of the trace. -/
def concludeToFile : EStateM.Result Stop Machine Unit → Filing (Ending × Console)
  | .ok () machine => do
    let console ← machine.console.file .finished
    return (.reported (report machine none), console)
  | .error (.failure cause) machine => do
    let console ← machine.console.file (.failed cause)
    return (.reported (report machine (some cause)), console)
  | .error .undefinedRemainder machine => return (.undefinedRemainder, machine.console)
  | .error .outOfSteps machine => return (.outOfSteps, machine.console)

/-- Runs a program with its trace in a file. -/
def runToFile (steps : Nat) (strict : Bool) (tokens : List Token) (console : Console) :
    Filing (Ending × Console) := do
  let console ← announceToFile tokens console
  let result ← (Plan.statements steps).runToFile (.start tokens strict console)
  concludeToFile result

end Program

end ToonScript
