import ToonScript.Decimal.Numeral
import ToonScript.Json.Basic

/-!
# Reading Json

`Json.parse` reads a whole text. Beyond the standard it accepts the words `NaN`, `Infinity` and
`-Infinity`. Of several members of one key the last counts. An escaped surrogate is joined with
its partner; one without a partner stands alone in the text.

The readers take a step budget that the text itself provides: every step consumes a character or
opens a nested reading, so `2 * length + 2` steps are enough for every text.
-/

set_option autoImplicit false

namespace ToonScript.Json

open ToonScript.Text

/-- Why a text is not read. -/
inductive ParseError where
  | malformed
  | tooLong (digits : Nat)
deriving DecidableEq, Repr

/-- Whether a character may stand between two signs of the format. -/
def isSpace (c : Char) : Bool := c = ' ' || c = '\t' || c = '\n' || c = '\r'

/-- The characters after leading spaces. -/
def skipSpace (cs : List Char) : List Char := cs.dropWhile isSpace

/-- The value of a hexadecimal digit. -/
def hexValue? (c : Char) : Option Nat :=
  if '0' ≤ c && c ≤ '9' then some (c.toNat - '0'.toNat)
  else if 'a' ≤ c && c ≤ 'f' then some (c.toNat - 'a'.toNat + 10)
  else if 'A' ≤ c && c ≤ 'F' then some (c.toNat - 'A'.toNat + 10)
  else none

/-- The number of four hexadecimal digits. -/
def hexFour? (a b c d : Char) : Option Nat := do
  return ((← hexValue? a) * 16 + (← hexValue? b)) * 256 +
    ((← hexValue? c) * 16 + (← hexValue? d))

/-- The code point of a code unit. -/
def unitPoint (unit : Nat) : Point :=
  if 0xD800 ≤ unit ∧ unit < 0xE000 then .lone (Fin.ofNat 2048 (unit - 0xD800)) else
    .char (Char.ofNat unit)

/-- The character of two code units, if they are a surrogate pair. -/
def pairChar? (high low : Nat) : Option Char :=
  if 0xD800 ≤ high ∧ high < 0xDC00 ∧ 0xDC00 ≤ low ∧ low < 0xE000 then
    some (Char.ofNat (0x10000 + (high - 0xD800) * 0x400 + (low - 0xDC00)))
  else none

/-- The character that a letter after a backslash stands for. -/
def escaped? (c : Char) : Option Char :=
  match c with
  | '"' => some '"'
  | '\\' => some '\\'
  | '/' => some '/'
  | 'b' => some (Char.ofNat 0x08)
  | 'f' => some (Char.ofNat 0x0C)
  | 'n' => some '\n'
  | 'r' => some '\r'
  | 't' => some '\t'
  | _ => none

/-- Reads a text up to its closing quote, where `done` holds the code points read, the latest
one first. -/
def readText : List Point → List Char → Except ParseError (Text × List Char)
  | done, '"' :: rest => .ok (⟨done.reverse⟩, rest)
  | done, '\\' :: 'u' :: a :: b :: c :: d :: '\\' :: 'u' :: e :: f :: g :: h :: rest =>
    match hexFour? a b c d with
    | none => .error .malformed
    | some high =>
      match (hexFour? e f g h).bind (pairChar? high) with
      | some joined => readText (.char joined :: done) rest
      | none => readText (unitPoint high :: done) ('\\' :: 'u' :: e :: f :: g :: h :: rest)
  | done, '\\' :: 'u' :: a :: b :: c :: d :: rest =>
    match hexFour? a b c d with
    | none => .error .malformed
    | some unit => readText (unitPoint unit :: done) rest
  | done, '\\' :: c :: rest =>
    match escaped? c with
    | none => .error .malformed
    | some plain => readText (.char plain :: done) rest
  | done, c :: rest =>
      if c.toNat < 0x20 then .error .malformed else readText (.char c :: done) rest
  | _, [] => .error .malformed

/-- The fraction of a numeral: a point and at least one digit. -/
def splitFraction : List Char → List Char × List Char
  | '.' :: rest =>
    let digits := rest.takeWhile isAsciiDigit
    if digits.isEmpty then ([], '.' :: rest) else (digits, rest.dropWhile isAsciiDigit)
  | cs => ([], cs)

/-- The exponent of a numeral, if one with at least one digit follows. -/
def splitExponent : List Char → Option Int × List Char
  | [] => (none, [])
  | mark :: rest =>
    if mark = 'e' || mark = 'E' then
      let (negative, signless) := Decimal.splitSign rest
      let digits := signless.takeWhile isAsciiDigit
      if digits.isEmpty then (none, mark :: rest)
      else
        (some (if negative then -(digitsValue digits : Int) else digitsValue digits),
          signless.dropWhile isAsciiDigit)
    else (none, mark :: rest)

/-- The digits before the point of a numeral: a zero alone, or digits that start with no zero.
-/
def splitWhole : List Char → Option (List Char × List Char)
  | '0' :: rest => some (['0'], rest)
  | cs =>
    let digits := cs.takeWhile isAsciiDigit
    if digits.isEmpty then none else some (digits, cs.dropWhile isAsciiDigit)

/-- Reads a numeral after its sign. -/
def readNumber (negative : Bool) (cs : List Char) : Except ParseError (Json × List Char) :=
  match splitWhole cs with
  | none => .error .malformed
  | some (whole, rest) =>
    let (fraction, rest) := splitFraction rest
    let (exponent, rest) := splitExponent rest
    if fraction.isEmpty && exponent.isNone then
      match Decimal.signedInteger negative whole with
      | .ok n => .ok (.int n, rest)
      | .error _ => .error (.tooLong whole.length)
    else
      let magnitude := Decimal.ofDecimal (whole ++ fraction) (exponent.getD 0 - fraction.length)
      .ok (.float (if negative then -magnitude else magnitude), rest)

/-- Reads a value that is neither an array, nor an object, nor a text. -/
def readScalar : List Char → Except ParseError (Json × List Char)
  | 'n' :: 'u' :: 'l' :: 'l' :: rest => .ok (.null, rest)
  | 't' :: 'r' :: 'u' :: 'e' :: rest => .ok (.bool true, rest)
  | 'f' :: 'a' :: 'l' :: 's' :: 'e' :: rest => .ok (.bool false, rest)
  | 'N' :: 'a' :: 'N' :: rest => .ok (.float (0.0 / 0.0), rest)
  | 'I' :: 'n' :: 'f' :: 'i' :: 'n' :: 'i' :: 't' :: 'y' :: rest =>
      .ok (.float (1.0 / 0.0), rest)
  | '-' :: 'I' :: 'n' :: 'f' :: 'i' :: 'n' :: 'i' :: 't' :: 'y' :: rest =>
    .ok (.float (-(1.0 / 0.0)), rest)
  | '-' :: rest => readNumber true rest
  | cs => readNumber false cs

/-- Reads the key of a member, the colon and the spaces after them. -/
def readKey : List Char → Except ParseError (Text × List Char)
  | '"' :: rest => do
    let (key, rest) ← readText [] rest
    match skipSpace rest with
    | ':' :: rest => .ok (key, skipSpace rest)
    | _ => .error .malformed
  | _ => .error .malformed

mutual

/-- Reads a value with a budget of steps. -/
def readValue : Nat → List Char → Except ParseError (Json × List Char)
  | 0, _ => .error .malformed
  | _ + 1, '"' :: rest => do
    let (s, rest) ← readText [] rest
    .ok (.str s, rest)
  | steps + 1, '[' :: rest =>
    match skipSpace rest with
    | ']' :: rest => .ok (.arr [], rest)
    | rest => do
      let (items, rest) ← readItems steps rest
      .ok (.arr items, rest)
  | steps + 1, '{' :: rest =>
    match skipSpace rest with
    | '}' :: rest => .ok (.obj [], rest)
    | rest => do
      let (members, rest) ← readMembers steps [] rest
      .ok (.obj members, rest)
  | _ + 1, cs => readScalar cs

/-- Reads the items of an array up to its closing bracket. -/
def readItems : Nat → List Char → Except ParseError (List Json × List Char)
  | 0, _ => .error .malformed
  | steps + 1, cs => do
    let (item, rest) ← readValue steps cs
    match skipSpace rest with
    | ']' :: rest => .ok ([item], rest)
    | ',' :: rest =>
      let (items, rest) ← readItems steps (skipSpace rest)
      .ok (item :: items, rest)
    | _ => .error .malformed

/-- Reads the members of an object up to its closing bracket and adds them to those read before.
-/
def readMembers : Nat → List (Text × Json) → List Char →
    Except ParseError (List (Text × Json) × List Char)
  | 0, _, _ => .error .malformed
  | steps + 1, done, cs => do
    let (key, rest) ← readKey cs
    let (value, rest) ← readValue steps rest
    match skipSpace rest with
    | '}' :: rest => .ok (setMember key value done, rest)
    | ',' :: rest => readMembers steps (setMember key value done) (skipSpace rest)
    | _ => .error .malformed

end

/-- The value that a whole text writes. -/
def parse (text : String) : Except ParseError Json := do
  let cs := text.toList
  let (value, rest) ← readValue (2 * cs.length + 2) (skipSpace cs)
  if (skipSpace rest).isEmpty then .ok value else .error .malformed

end ToonScript.Json
