/-!
# Blank characters

A character is blank when it separates words. The class is the Unicode white space together with
the four information separators `U+001C` to `U+001F`, which the standard leaves out.

Numerals may be padded, but not with the information separators: `isPadding` is the smaller
class, and `trimPadding` removes it from both ends of a text.
-/

set_option autoImplicit false

namespace ToonScript.Text

/-- Whether the code point of a character lies in one of the inclusive ranges. -/
def inRanges (ranges : List (Nat × Nat)) (c : Char) : Bool :=
  ranges.any fun range => range.1 ≤ c.toNat && c.toNat ≤ range.2

/-- The inclusive code point ranges of the blank characters. -/
def blankRanges : List (Nat × Nat) :=
  [(0x09, 0x0D), (0x1C, 0x20), (0x85, 0x85), (0xA0, 0xA0), (0x1680, 0x1680), (0x2000, 0x200A),
    (0x2028, 0x2029), (0x202F, 0x202F), (0x205F, 0x205F), (0x3000, 0x3000)]

/-- Whether a character separates words. -/
def isBlank (c : Char) : Bool := inRanges blankRanges c

/-- Whether a character may pad a numeral: a blank other than an information separator. -/
def isPadding (c : Char) : Bool := isBlank c && !inRanges [(0x1C, 0x1F)] c

/-- A text without the padding at its two ends. -/
def trimPadding (cs : List Char) : List Char :=
  ((cs.dropWhile isPadding).reverse.dropWhile isPadding).reverse

end ToonScript.Text
