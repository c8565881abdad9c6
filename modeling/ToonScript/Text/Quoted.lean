import ToonScript.Text.Basic
import ToonScript.Text.Printable

/-!
# Quoted text

Messages and traces show a text between quotes. Single quotes are used unless the text holds a
single quote and no double quote. Inside, the backslash, the chosen quote and the characters
that are not printable are escaped: line feed, carriage return and tab by a letter, every other
one by its code point in lower-case hexadecimal with two, four or eight places. A surrogate that
stands alone is escaped too, so a quoted text is a string.
-/

set_option autoImplicit false

namespace ToonScript.Text

/-- The hexadecimal digits of a number, filled with zeros on the left up to `width` places. -/
def hexDigits (width n : Nat) : List Char :=
  let digits := Nat.toDigits 16 n
  List.replicate (width - digits.length) '0' ++ digits

/-- The quote that stands around a text. -/
def quoteMark (points : List Point) : Char :=
  if points.contains (.char '\'') && !points.contains (.char '"') then '"' else '\''

/-- One character of quoted text, where `mark` is the surrounding quote. -/
def escapeChar (mark c : Char) : List Char :=
  if c = mark || c = '\\' then ['\\', c]
  else if c = '\n' then ['\\', 'n']
  else if c = '\r' then ['\\', 'r']
  else if c = '\t' then ['\\', 't']
  else if isPrintable c then [c]
  else if c.toNat < 0x100 then '\\' :: 'x' :: hexDigits 2 c.toNat
  else if c.toNat < 0x10000 then '\\' :: 'u' :: hexDigits 4 c.toNat
  else '\\' :: 'U' :: hexDigits 8 c.toNat

/-- One code point of quoted text. -/
def escapePoint (mark : Char) : Point → List Char
  | .char c => escapeChar mark c
  | point => '\\' :: 'u' :: hexDigits 4 point.code

/-- A text between quotes, as messages show it. -/
def quoted (text : Text) : String :=
  let mark := quoteMark text.points
  String.ofList (mark :: text.points.flatMap (escapePoint mark) ++ [mark])

end ToonScript.Text
