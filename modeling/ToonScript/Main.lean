import ToonScript.Command.Batch

/-!
# The command line

Reads the files that the arguments name, runs the command on them, writes the files that
changed, and prints. Standard input is read only if one of the files holds the word or the kind
of an input statement.
-/

set_option autoImplicit false

open ToonScript.Command

namespace ToonScript

/-- More steps than any run that ends can use. -/
def stepBudget : Nat := 1000000000000000000

/-- Adds what stands on disk at a path to the files. -/
def loadPath (files : Files) (path : String) : IO Files := do
  try
    let content ← IO.FS.readFile path
    return files.write path content
  catch
    | .noFileOrDirectory _ _ _ => return files
    | .inappropriateType _ _ _ => return { files with directories := path :: files.directories }
    | _ => return files

/-- The paths that the arguments may name: all of them, and what stands behind an equals sign.
-/
def namedPaths (arguments : List String) : List String :=
  arguments.flatMap fun argument =>
    [argument, String.intercalate "=" ((argument.splitOn "=").drop 1)].map fun text =>
      (Path.ofString text).toString

/-- Whether one of the files may ask for input. -/
def mayAskInput (files : Files) : Bool :=
  files.texts.any fun file =>
    (file.2.splitOn "marsupilami").length > 1 || (file.2.splitOn "INPUT").length > 1

/-- Writes a file that is new or has changed. -/
def saveText (before : Files) (file : String × String) : IO Unit := do
  if before.texts.contains file then return
  IO.FS.writeFile file.1 file.2

end ToonScript

open ToonScript in
/-- Runs the command and gives its exit code. -/
def main (arguments : List String) : IO UInt32 := do
  let files ← (namedPaths arguments).foldlM loadPath ⟨[], []⟩
  let input ← if mayAskInput files then (← IO.getStdin).readToEnd else pure ""
  let outcome := run stepBudget arguments files ((Text.feedLines input).map Text.ofString)
  outcome.files.texts.forM (saveText files)
  IO.print (String.ofList outcome.stdout.chars)
  IO.eprint (String.ofList outcome.stderr.chars)
  match outcome.exit with
  | .ok code => return code.toUInt32
  | .error crash =>
    IO.eprintln (Act.commandName ++ ": " ++ crash.message)
    return 1
