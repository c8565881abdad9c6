import ToonScript.Text.Digit
import ToonScript.Text.Quoted

/-!
# Command-line options

The arguments of the command are options and operands, in any order. A long option may be
shortened as long as only one is meant, and takes its value from behind an equals sign or from
the next argument; short options take none and may share one dash. Behind `--` everything is an
operand. Only the first run of operands names programs: what follows a later option is refused,
as is every option that is not known.

`Options.parse` classifies all arguments first, so an ambiguous option is reported before
anything else.
-/

set_option autoImplicit false

namespace ToonScript.Command

/-- The options of the command. -/
inductive Flag where
  | help | verbose | strict | emitTokens | tokens
deriving DecidableEq, Repr

namespace Flag

/-- The spellings of the options. -/
def spellings : List (String × Flag) :=
  [("-h", help), ("--help", help), ("-v", verbose), ("--strict", strict),
    ("--emit-tokens", emitTokens), ("--tokens", tokens)]

/-- The option of a spelling. -/
def ofSpelling? (text : String) : Option Flag :=
  (spellings.find? fun entry => entry.1 == text).map (·.2)

/-- How messages name an option. -/
def name : Flag → String
  | help => "-h/--help"
  | verbose => "-v"
  | strict => "--strict"
  | emitTokens => "--emit-tokens"
  | tokens => "--tokens"

/-- Whether an option takes a value. -/
def takesValue : Flag → Bool
  | emitTokens | tokens => true
  | _ => false

end Flag

/-- Why the arguments are refused. -/
inductive UsageError where
  | ambiguous (argument : String) (candidates : List String)
  | ignoredValue (flag : Flag) (value : String)
  | missingValue (flag : Flag)
  | conflict (flag earlier : Flag)
  | unrecognized (arguments : List String)
  | missingProgram
deriving DecidableEq, Repr

/-- The message of a usage error. -/
def UsageError.message : UsageError → String
  | ambiguous argument candidates =>
    s!"ambiguous option: {argument} could match " ++ String.intercalate ", " candidates
  | ignoredValue flag value =>
      s!"argument {flag.name}: ignored explicit argument {Text.quoted value}"
  | missingValue flag => s!"argument {flag.name}: expected one argument"
  | conflict flag earlier => s!"argument {flag.name}: not allowed with argument {earlier.name}"
  | unrecognized arguments => "unrecognized arguments: " ++ String.intercalate " " arguments
  | missingProgram => "missing program file; or use --emit-tokens/--tokens"

/-- What an argument is. An operand is the name of a program, or the value of the option before
it; behind the separator there are only operands. A short option may have characters that share
its dash or stand behind an equals sign, and a long one a value behind an equals sign. -/
inductive Word where
  | operand
  | separator
  | short (flag : Flag) (tail : Option (List Char))
  | long (flag : Flag) (value : Option String)
  | unknown
deriving DecidableEq, Repr

/-- Whether an argument is a dash and a decimal number; one line feed may follow. -/
def isNegativeNumber (cs : List Char) : Bool :=
  match cs with
  | '-' :: body =>
    let body := if body.getLast? = some '\n' then body.dropLast else body
    let isDigit (c : Char) := (Text.digitValue? c).isSome
    match body.dropWhile isDigit with
    | [] => !body.isEmpty
    | '.' :: fraction => !fraction.isEmpty && fraction.all isDigit
    | _ => false
  | _ => false

/-- What an argument with a leading dash is if it is no known option. -/
def unknownWord (cs : List Char) : Word :=
  if isNegativeNumber cs || cs.contains ' ' then .operand else .unknown

/-- What an argument with two leading dashes is. -/
def longWord (argument : String) (cs : List Char) : Except UsageError Word :=
  let head := cs.takeWhile (· != '=')
  let value := match cs.dropWhile (· != '=') with
    | _ :: value => some (String.ofList value)
    | [] => none
  match Flag.ofSpelling? (String.ofList head) with
  | some flag => .ok (.long flag value)
  | none =>
    match Flag.spellings.filter fun entry => head.isPrefixOf entry.1.toList with
    | [] => .ok (unknownWord cs)
    | [(_, flag)] => .ok (.long flag value)
    | candidates => .error (.ambiguous argument (candidates.map (·.1)))

/-- The characters behind a short option. An equals sign right behind it is left out. -/
def shortTail : List Char → Option (List Char)
  | [] => none
  | '=' :: rest => some rest
  | rest => some rest

/-- What an argument before the separator is. -/
def classify (argument : String) : Except UsageError Word :=
  match argument.toList with
  | '-' :: '-' :: rest => longWord argument ('-' :: '-' :: rest)
  | '-' :: c :: rest =>
    match Flag.ofSpelling? (String.ofList ['-', c]) with
    | some flag => .ok (.short flag (shortTail rest))
    | none => .ok (unknownWord ('-' :: c :: rest))
  | _ => .ok .operand

/-- All arguments with what they are. -/
def classifyAll : List String → Except UsageError (List (String × Word))
  | [] => .ok []
  | argument :: rest =>
    if argument =
      "--" then .ok ((argument, .separator) :: rest.map fun operand => (operand, .operand))
    else do
      let word ← classify argument
      return (argument, word) :: (← classifyAll rest)

/-- The short options that characters behind a first one stand for; every one of them has to be
known. -/
def shortFlags (flag : Flag) : List Char → Except UsageError (List Flag)
  | [] => .ok [flag]
  | c :: rest =>
    match Flag.ofSpelling? (String.ofList ['-', c]) with
    | none => .error (.ignoredValue flag (String.ofList (c :: rest)))
    | some next => return flag :: (← shortFlags next rest)

/-- The short options of one argument. No short option takes a value, so an equals sign with
nothing behind it is refused. -/
def splitShort (flag : Flag) : Option (List Char) → Except UsageError (List Flag)
  | none => .ok [flag]
  | some [] => .error (.ignoredValue flag "")
  | some tail => shortFlags flag tail

/-- The value behind the equals sign of a long option. The separator stands for an empty value
there. -/
def explicitValue (value : String) : String := if value = "--" then "" else value

/-- The options as far as the arguments are read. The verbosity counts how often it was raised,
`closed` tells that the first run of operands is over, and the extras are the arguments that
mean nothing. -/
structure Options where
  verbosity : Nat := 0
  strict : Bool := false
  emitTokens : Option String := none
  tokens : Option String := none
  programs : List String := []
  closed : Bool := false
  extras : List String := []
deriving DecidableEq, Repr

namespace Options

/-- Adds an argument that is no option. -/
def addOperand (options : Options) (argument : String) : Options :=
  if options.closed then { options with extras := options.extras ++ [argument] }
  else { options with programs := options.programs ++ [argument] }

/-- An option ends the first run of operands. -/
def closeRun (options : Options) : Options :=
  if options.programs.isEmpty then options else { options with closed := true }

/-- Takes the value of an option. The two options with a value exclude each other. -/
def takeValue (options : Options) (flag : Flag) (value : String) : Except UsageError Options :=
  match flag with
  | .emitTokens =>
    if options.tokens.isSome then .error (.conflict .emitTokens .tokens)
    else .ok { options with emitTokens := some value }
  | .tokens =>
    if options.emitTokens.isSome then .error (.conflict .tokens .emitTokens)
    else .ok { options with tokens := some value }
  | _ => .ok options

/-- Takes an option without a value; `none` when help is asked for. -/
def takeFlag (options : Options) (flag : Flag) : Option Options :=
  match flag with
  | .help => none
  | .verbose => some { options with verbosity := options.verbosity + 1 }
  | .strict => some { options with strict := true }
  | _ => some options

/-- Reads the classified arguments; `none` when help is asked for. -/
def read (options : Options) : List (String × Word) → Except UsageError (Option Options)
  | [] => .ok (some options)
  | (argument, .operand) :: rest => read (options.addOperand argument) rest
  | (argument, .separator) :: rest => read (options.addOperand argument) rest
  | (argument, .unknown) :: rest =>
    let options := options.closeRun
    read { options with extras := options.extras ++ [argument] } rest
  | (_, .short flag tail) :: rest => do
    let flags ← splitShort flag tail
    match flags.foldlM takeFlag options.closeRun with
    | none => .ok none
    | some options => read options rest
  | (_, .long flag value) :: rest =>
    let options := options.closeRun
    if flag.takesValue then
      match value, rest with
      | some value, rest => do read (← options.takeValue flag (explicitValue value)) rest
      | none, (value, .operand) :: rest => do read (← options.takeValue flag value) rest
      | none, _ => .error (.missingValue flag)
    else
      match value, options.takeFlag flag with
      | some value, _ => .error (.ignoredValue flag value)
      | none, none => .ok none
      | none, some options => read options rest

/-- The options that the arguments stand for; `none` when help is asked for. -/
def parse (arguments : List String) : Except UsageError (Option Options) := do
  match ← read {} (← classifyAll arguments) with
  | none => .ok none
  | some options =>
    if options.extras.isEmpty then
      .ok (some { options with programs := options.programs.erase "--" })
    else .error (.unrecognized options.extras)

end Options

end ToonScript.Command
