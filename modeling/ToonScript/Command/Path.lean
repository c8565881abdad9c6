/-!
# Paths and files

A path is kept in a normal form: without empty parts and without `.`. Two slashes at its front
are kept apart from one, and a path without any part is shown as `.`. A part `..` is kept.

`Files` are the texts that the command can read and has written, by the text of their paths. A
path is a directory if it only climbs, if a file lies below it, or if it is known to be one.
-/

set_option autoImplicit false

namespace ToonScript.Command

/-- A path in normal form: the slashes at its front, of which there are none, one or two, and
the parts between the others. -/
structure Path where
  root : String
  parts : List String
deriving DecidableEq, Repr

namespace Path

/-- The slashes at the front of a path: exactly two are kept, more count as one. -/
def rootOf (cs : List Char) : String :=
  match (cs.takeWhile (· == '/')).length with
  | 0 => ""
  | 2 => "//"
  | _ => "/"

/-- The pieces of a text between its slashes, where `part` holds the characters of the piece
under way, the latest one first. -/
def splitSlashes : List Char → List Char → List (List Char)
  | part, [] => [part.reverse]
  | part, c :: rest =>
    if c = '/' then part.reverse :: splitSlashes [] rest else splitSlashes (c :: part) rest

/-- The path that a text names. -/
def ofString (text : String) : Path :=
  ⟨rootOf text.toList,
    ((splitSlashes [] text.toList).map String.ofList).filter fun part =>
      part != "" && part != "."⟩

/-- The text of a path. -/
def toString (path : Path) : String :=
  let text := path.root ++ String.intercalate "/" path.parts
  if text.isEmpty then "." else text

/-- The last part of a path. -/
def name (path : Path) : String := path.parts.getLast?.getD ""

/-- A path with a suffix at its last part. -/
def withSuffix (path : Path) (suffix : String) : Path :=
  { path with parts := path.parts.dropLast ++ [path.name ++ suffix] }

end Path

/-- Texts by the texts of their paths, in the order in which they came to be, and the paths that
are known to be directories. -/
structure Files where
  texts : List (String × String)
  directories : List String := []
deriving DecidableEq, Repr

namespace Files

/-- What stands at a path. -/
inductive Entry where
  | text (content : String)
  | directory
  | missing
deriving DecidableEq, Repr

/-- Whether a path is a directory. -/
def isDirectory (files : Files) (path : Path) : Bool :=
  path.parts.all (· == "..") || files.directories.contains path.toString ||
    files.texts.any fun file => (path.toString ++ "/").toList.isPrefixOf file.1.toList

/-- What stands at a path. -/
def find (files : Files) (path : Path) : Entry :=
  match files.texts.find? fun file => file.1 == path.toString with
  | some file => .text file.2
  | none => if files.isDirectory path then .directory else .missing

/-- Writes a text into the list of files: in its place if the path is there already, at the end
otherwise. -/
def putText (name content : String) : List (String × String) → List (String × String)
  | [] => [(name, content)]
  | file :: rest =>
      if file.1 = name then (name, content) :: rest else file :: putText name content rest

/-- Writes a file. -/
def write (files : Files) (name content : String) : Files :=
  { files with texts := putText name content files.texts }

end Files

end ToonScript.Command
