import ToonScript.Text.Blank

/-!
# Chunks of a line

A line is cut at its blanks, except where a blank stands behind an odd number of double quotes:
a quoted span is never cut, and one that is not closed runs to the end of the line. The pieces
between the cuts that hold at least one character are the chunks.
-/

set_option autoImplicit false

namespace ToonScript.Token

open ToonScript.Text

/-- The chunks of the characters still to read. `quoted` tells whether an odd number of quotes
was read, and `chunk` holds the characters of the chunk under way, the latest one first. -/
def chunksFrom : Bool → List Char → List Char → List (List Char)
  | _, chunk, [] => if chunk.isEmpty then [] else [chunk.reverse]
  | quoted, chunk, c :: rest =>
    if c = '"' then chunksFrom (!quoted) (c :: chunk) rest
    else if isBlank c && !quoted then
      if chunk.isEmpty then chunksFrom false [] rest
      else chunk.reverse :: chunksFrom false [] rest
    else chunksFrom quoted (c :: chunk) rest

/-- The chunks of a line, from left to right. -/
def chunks (line : String) : List String := (chunksFrom false [] line.toList).map String.ofList

end ToonScript.Token
