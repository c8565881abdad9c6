import ToonScript.Environment

/-!
# The console

A run talks to the outside through a console only: it takes input lines from a feed, writes
lines, and leaves events in a trace. Every event has a level, and the trace keeps those up to
the verbosity of the console. The outside also says how deep it lets the groups of an expression
be nested.
-/

set_option autoImplicit false

namespace ToonScript

/-- The input lines still to come, and how many were asked for already. -/
structure Feed where
  lines : List Text
  taken : Nat := 0
deriving DecidableEq

/-- The next input line, which is empty when none is left. -/
def Feed.next (feed : Feed) : Text × Feed :=
  (feed.lines.head?.getD "", ⟨feed.lines.tail, feed.taken + 1⟩)

/-- What happens in a run. `loopStopped` tells that the condition of a loop was no truth value.
-/
inductive Event where
  | file (path : String)
  | started (tokens : Nat)
  | token (token : Token)
  | declared (name : Text) (value : Value)
  | assigned (name : Text) (value : Value)
  | entered (name : Text) (value : Value)
  | returned (value : Value)
  | broke
  | continued
  | branched (holds : Bool)
  | looped (iterations : Nat)
  | mismatched (mismatch : Mismatch)
  | loopStopped (ty : Ty)
  | failed (cause : Failure)
  | finished
deriving DecidableEq

namespace Event

/-- The verbosity from which on an event is kept. -/
def level : Event → Nat
  | file _ | started _ | mismatched _ | loopStopped _ | failed _ | finished => 1
  | declared _ _ | assigned _ _ | entered _ _ | returned _ | broke | continued => 2
  | branched _ | looped _ => 3
  | token _ => 4

/-- The line of an event in the trace. -/
def message : Event → Text
  | file path => "--- " ++ path ++ " ---"
  | started tokens => s!"Program started ({tokens} tokens)."
  | token t => "  Next token: " ++ t.describe
  | declared name value => "declare " ++ name ++ " = " ++ value.describe
  | assigned name value => "assign " ++ name ++ " = " ++ value.describe
  | entered name value => "input " ++ name ++ " = " ++ value.describe
  | returned value => s!"return {value.describe}"
  | broke => "break"
  | continued => "continue"
  | branched holds => "if condition " ++ (Value.boolean holds).text
  | looped iterations => s!"while loop ran {iterations} iteration(s)"
  | mismatched mismatch => "Warning: " ++ mismatch.message
  | loopStopped ty => s!"Warning: while condition evaluated to {ty.name}; loop stopped"
  | failed cause => "Program failed: " ++ cause.text
  | finished => "Program finished successfully."

end Event

/-- What a run reads, writes and leaves as its trace. The lines are kept without their line
feeds, and the events up to the level of the verbosity; groups may be nested up to `groupLimit`
deep. -/
structure Console where
  feed : Feed := ⟨[], 0⟩
  output : Array Text := #[]
  verbosity : Nat := 0
  trace : Array Event := #[]
  groupLimit : Nat := 200
deriving DecidableEq

namespace Console

/-- Takes the next input line. -/
def read (console : Console) : Text × Console :=
  let (line, feed) := console.feed.next
  (line, { console with feed })

/-- Writes a line. -/
def write (console : Console) (line : Text) : Console :=
  { console with output := console.output.push line }

/-- Keeps an event if its level is not above the verbosity. -/
def note (console : Console) (event : Event) : Console :=
  if event.level ≤
    console.verbosity then { console with trace := console.trace.push event } else console

/-- Lines as one text, each ended by a line feed. -/
def joinLines (lines : List Text) : Text := .join (lines.map (· ++ "\n"))

/-- The written lines as one text. -/
def outputText (console : Console) : Text := joinLines console.output.toList

/-- The trace as one text. -/
def traceText (console : Console) : Text := joinLines (console.trace.toList.map Event.message)

end Console

end ToonScript
