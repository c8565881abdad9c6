import ToonScript.Json.Basic

/-!
# Writing Json

A value is written on one line or indented by two blanks per level. Both are the same printer
with different gaps between the items: a `Style` says what follows an opening bracket, what
stands between two items and what precedes the closing bracket at a given depth. In a text, the
quote, the backslash and the control characters are escaped; every other character stands for
itself. A surrogate that stands alone has no other form than its escape.
-/

set_option autoImplicit false

namespace ToonScript.Json

/-- The gaps of a printed array or object, by the depth at which it stands: behind the opening
bracket, behind the comma between two items, and before the closing bracket. -/
structure Style where
  opening : Nat → List Char
  between : Nat → List Char
  closing : Nat → List Char

/-- A line feed and the indentation of a depth. -/
def newline (depth : Nat) : List Char := '\n' :: List.replicate (2 * depth) ' '

/-- Everything on one line. -/
def Style.line : Style := ⟨fun _ => [], fun _ => [' '], fun _ => []⟩

/-- One item a line, indented by two blanks per level. -/
def Style.indented : Style :=
  ⟨fun depth => newline (depth + 1), fun depth => newline (depth + 1), newline⟩

/-- One character of a written text. -/
def escapeChar (c : Char) : List Char :=
  if c = '"' then ['\\', '"']
  else if c = '\\' then ['\\', '\\']
  else if c = '\n' then ['\\', 'n']
  else if c = '\r' then ['\\', 'r']
  else if c = '\t' then ['\\', 't']
  else if c.toNat = 0x08 then ['\\', 'b']
  else if c.toNat = 0x0C then ['\\', 'f']
  else if c.toNat < 0x20 then '\\' :: 'u' :: Text.hexDigits 4 c.toNat
  else [c]

/-- One code point of a written text. -/
def escapePoint : Point → List Char
  | .char c => escapeChar c
  | point => '\\' :: 'u' :: Text.hexDigits 4 point.code

/-- A text between quotes. -/
def writeText (text : Text) : List Char := '"' :: (text.points.flatMap escapePoint ++ ['"'])

mutual

/-- The characters of a value at a depth. -/
def write (style : Style) (depth : Nat) : Json → List Char
  | null => ['n', 'u', 'l', 'l']
  | bool true => ['t', 'r', 'u', 'e']
  | bool false => ['f', 'a', 'l', 's', 'e']
  | int n => (toString n).toList
  | float x => (Decimal.Layout.data.render x).toList
  | str s => writeText s
  | arr [] => ['[', ']']
  | arr (item :: rest) =>
    '[' :: (style.opening depth ++ write style (depth + 1) item ++
      writeItems style depth rest ++ style.closing depth ++ [']'])
  | obj [] => ['{', '}']
  | obj ((key, value) :: rest) =>
    '{' :: (style.opening depth ++ writeText key ++ ':' :: ' ' ::
      write style (depth + 1) value ++
      writeMembers style depth rest ++ style.closing depth ++ ['}'])

/-- The items of an array after its first. -/
def writeItems (style : Style) (depth : Nat) : List Json → List Char
  | [] => []
  | item :: rest =>
    ',' :: (style.between depth ++ write style (depth + 1) item ++ writeItems style depth rest)

/-- The members of an object after its first. -/
def writeMembers (style : Style) (depth : Nat) : List (Text × Json) → List Char
  | [] => []
  | (key, value) :: rest =>
    ',' :: (style.between depth ++ writeText key ++ ':' :: ' ' ::
      write style (depth + 1) value ++ writeMembers style depth rest)

end

/-- The text of a value in a style. -/
def render (style : Style) (value : Json) : String := String.ofList (write style 0 value)

end ToonScript.Json
