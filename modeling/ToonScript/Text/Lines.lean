/-!
# Lines of a text

`splitLines` cuts a source text into lines. Besides the line feed, a line ends at a carriage
return, at the pair of both (which counts once), at a vertical tab, a form feed, the separators
`U+001C` to `U+001E`, the next-line control and the two Unicode separators. A text that ends
with a line end has no further empty line.

`unifyNewlines` is the reading of a text file: a carriage return, alone or before a line feed,
becomes one line feed. `feedLines` cuts console text, where only the line feed ends a line.
-/

set_option autoImplicit false

namespace ToonScript.Text

/-- Whether a character ends a line of source text. -/
def isLineEnd (c : Char) : Bool :=
  (0x0A ≤ c.toNat && c.toNat ≤ 0x0D) || (0x1C ≤ c.toNat && c.toNat ≤ 0x1E) || c.toNat == 0x85 ||
    (0x2028 ≤ c.toNat && c.toNat ≤ 0x2029)

/-- The lines of the characters still to read, where `line` holds the characters of the line
under way, the latest one first. -/
def splitLinesFrom : List Char → List Char → List (List Char)
  | line, [] => if line.isEmpty then [] else [line.reverse]
  | line, '\r' :: '\n' :: rest => line.reverse :: splitLinesFrom [] rest
  | line, c :: rest =>
    if isLineEnd c then line.reverse :: splitLinesFrom [] rest else
      splitLinesFrom (c :: line) rest

/-- The lines of a source text, without their ends. -/
def splitLines (text : String) : List String :=
  (splitLinesFrom [] text.toList).map String.ofList

/-- The characters of a text file as they are read: every carriage return, alone or before a
line feed, is one line feed. The first argument holds what is already read, the latest character
first. -/
def unifyNewlinesFrom : List Char → List Char → List Char
  | done, [] => done.reverse
  | done, '\r' :: '\n' :: rest => unifyNewlinesFrom ('\n' :: done) rest
  | done, '\r' :: rest => unifyNewlinesFrom ('\n' :: done) rest
  | done, c :: rest => unifyNewlinesFrom (c :: done) rest

/-- A text file as it is read, with line feeds as its only newlines. -/
def unifyNewlines (text : String) : String :=
  String.ofList (unifyNewlinesFrom [] text.toList)

/-- The lines of the console text still to read, ended by line feeds only. -/
def feedLinesFrom : List Char → List Char → List (List Char)
  | line, [] => if line.isEmpty then [] else [line.reverse]
  | line, c :: rest =>
    if c = '\n' then line.reverse :: feedLinesFrom [] rest else feedLinesFrom (c :: line) rest

/-- The lines that a console offers to a reader. -/
def feedLines (text : String) : List String :=
  (feedLinesFrom [] text.toList).map String.ofList

end ToonScript.Text
