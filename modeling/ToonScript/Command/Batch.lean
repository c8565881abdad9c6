import ToonScript.Command.Options
import ToonScript.Command.Path
import ToonScript.Json.Parser
import ToonScript.Json.Printer
import ToonScript.Machine.TraceFile
import ToonScript.Token.Dump

/-!
# The command

The command runs program files one after the other, keeps the tokens of a program in a file, or
runs a dump. Every program is run on its own; only the input lines and the trace go on from one
to the next. The trace is kept in the file `debug.txt` when the verbosity is above zero; a
message that the file cannot hold crashes the command.

An `Act` is a computation on the files, the console and the messages to the user. It gives the
exit code, or crashes, and a crash leaves everything as it got to be.
-/

set_option autoImplicit false

namespace ToonScript.Command

/-- What ends the command without an exit code of its own: a directory in the place of a file, a
dump that is not read, a run that comes to no report, or a message that the file of the trace
does not take. -/
inductive Crash where
  | directory
  | malformedData
  | tooLong (digits : Nat)
  | load (error : LoadError)
  | undefinedRemainder
  | unencodable
  | outOfSteps

/-- The message of a crash. -/
def Crash.message : Crash → String
  | directory => "is a directory"
  | malformedData => "malformed data"
  | tooLong digits => Decimal.tooLongMessage digits
  | load error => error.message
  | undefinedRemainder => OperationError.infiniteDividend.message
  | unencodable => "surrogates not allowed"
  | outOfSteps => "out of steps"

/-- What the command works on. The messages are the lines for the user, apart from the output of
the programs. -/
structure Shell where
  files : Files
  console : Console
  messages : Array Text := #[]

/-- A computation of the command. -/
abbrev Act (α : Type) := EStateM Crash Shell α

namespace Act

/-- The name of the command. -/
def commandName : String := "cizgikod"

/-- The file that holds the trace. -/
def traceFile : String := "debug.txt"

/-- The lines that show how the command is used. -/
def usage : List String :=
  ["usage: " ++ commandName ++ " [-h] [-v] [--strict]",
    "                [--emit-tokens CIZGI_FILE | --tokens TOKENS_JSON_FILE]",
    "                [programs ...]"]

/-- The lines that explain the command. -/
def help : List String :=
  usage ++
  ["",
    "ÇizgiKod language interpreter",
    "",
    "positional arguments:",
    "  programs              ÇizgiKod program files (.cizgi) to execute",
    "",
    "options:",
    "  -h, --help            show this help message and exit",
    "  -v                    increase debug verbosity (can be repeated)",
    "  --strict              treat assignments that change a variable type as errors",
    "  --emit-tokens CIZGI_FILE",
    "                        emit token JSON for the given .cizgi file",
    "  --tokens TOKENS_JSON_FILE",
    "                        execute tokens from a JSON file"]

/-- Tells the user a line. -/
def tell (line : Text) : Act Unit :=
  modify fun shell => { shell with messages := shell.messages.push line }

/-- Writes a line to the output. -/
def print (line : Text) : Act Unit :=
  modify fun shell => { shell with console := shell.console.write line }

/-- Brings the file of the trace up to date, if a trace is kept. -/
def saveTrace : Act Unit :=
  modify fun shell =>
    if shell.console.verbosity = 0 then shell
    else
      { shell with
        files := shell.files.write traceFile (String.ofList shell.console.traceText.chars) }

/-- Leaves an event in the trace. -/
def note (event : Event) : Act Unit := do
  modify fun shell => { shell with console := shell.console.note event }
  saveTrace

/-- Refuses the arguments. -/
def refuse (error : UsageError) : Act Nat := do
  usage.forM (tell ·)
  tell (commandName ++ ": error: " ++ error.message)
  return 2

/-- Reads a text file; a file that is missing is reported. -/
def readFile (path : Path) : Act (Option String) := do
  match (← get).files.find path with
  | .text content => return some (Text.unifyNewlines content)
  | .directory => throw .directory
  | .missing =>
    tell s!"Error: file {path.toString} not found"
    return none

/-- Tells the outcome of a run, and whether it succeeded. -/
def tellReport (name : String) (report : Report) : Act Bool := do
  report.warnings.forM fun warning => tell ("Warning: " ++ warning)
  match report.failure with
  | none =>
    tell s!"✔ Program parsed and executed successfully for {name}"
    return true
  | some failure =>
    tell ("❌ Runtime error in " ++ name ++ ": " ++ failure.text)
    return false

/-- Runs a list of tokens and tells the outcome. -/
def runTokens (steps : Nat) (strict : Bool) (name : String) (tokens : List Token) :
    Act Bool := do
  match Program.runToFile steps strict tokens (← get).console with
  | .error (_, console) =>
    modify fun shell => { shell with console }
    saveTrace
    throw .unencodable
  | .ok (ending, console) =>
    modify fun shell => { shell with console }
    saveTrace
    match ending with
    | .reported report => tellReport name report
    | .undefinedRemainder => throw .undefinedRemainder
    | .outOfSteps => throw .outOfSteps

/-- Runs a program file, and says whether it is there and succeeded. -/
def runProgram (steps : Nat) (strict : Bool) (program : String) : Act Bool := do
  let path := Path.ofString program
  match ← readFile path with
  | none => return false
  | some source =>
    note (.file path.toString)
    runTokens steps strict path.name (Token.ofSource source)

/-- Runs the programs of a batch, each on its own, and says whether all succeeded. -/
def runPrograms (steps : Nat) (strict : Bool) : List String → Act Bool
  | [] => return true
  | program :: rest => do
    let succeeded ← runProgram steps strict program
    let others ← runPrograms steps strict rest
    return succeeded && others

/-- Keeps the tokens of a program in a file beside it. -/
def emitTokens (program : String) : Act Nat := do
  let path := Path.ofString program
  match ← readFile path with
  | none => return 1
  | some source =>
    let target := (path.withSuffix ".tokens.json").toString
    let content := Json.render .indented (Token.dump (Token.ofSource source))
    modify fun shell => { shell with files := shell.files.write target content }
    print target
    return 0

/-- The tokens of the text of a dump. -/
def parseDump (text : String) : Act (List Token) := do
  match Json.parse text with
  | .error .malformed => throw .malformedData
  | .error (.tooLong digits) => throw (.tooLong digits)
  | .ok dump =>
    match Token.load dump with
    | .ok tokens => return tokens
    | .error error => throw (.load error)

/-- Runs a dump. -/
def runDump (steps : Nat) (strict : Bool) (file : String) : Act Nat := do
  let path := Path.ofString file
  match ← readFile path with
  | none => return 1
  | some text =>
    let tokens ← parseDump text
    return if ← runTokens steps strict path.name tokens then 0 else 1

/-- Runs what the options ask for. An empty file name counts as none. -/
def perform (steps : Nat) (options : Options) : Act Nat := do
  let emit := options.emitTokens.getD ""
  let dump := options.tokens.getD ""
  if emit != "" then emitTokens emit
  else
    modify fun shell => { shell with
      console := { shell.console with verbosity := options.verbosity } }
    saveTrace
    if dump != "" then runDump steps options.strict dump
    else if options.programs.isEmpty then refuse .missingProgram
    else return if ← runPrograms steps options.strict options.programs then 0 else 1

/-- The whole command on its arguments. -/
def command (steps : Nat) (arguments : List String) : Act Nat :=
  match Options.parse arguments with
  | .error error => refuse error
  | .ok none => do
    help.forM (print ·)
    return 0
  | .ok (some options) => perform steps options

end Act

/-- What is known after the command. -/
structure Outcome where
  exit : Except Crash Nat
  stdout : Text
  stderr : Text
  files : Files

/-- Runs the command on arguments, files and input lines. -/
def run (steps : Nat) (arguments : List String) (files : Files) (input : List Text) : Outcome :=
  let shell : Shell := { files, console := { feed := { lines := input } } }
  let (exit, shell) : Except Crash Nat × Shell := match Act.command steps arguments shell with
    | .ok code shell => (.ok code, shell)
    | .error crash shell => (.error crash, shell)
  { exit
    stdout := shell.console.outputText
    stderr := Console.joinLines shell.messages.toList
    files := shell.files }

end ToonScript.Command
