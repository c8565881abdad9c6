import ToonScript.Text.Blank
import ToonScript.Text.Digit

/-!
# Reading numerals

Numerals come from source literals, from data files and from the lines that a user types.
`ofDecimal` is the double nearest to a decimal. `readFloat?` and `readInteger` read a whole
text: padding around the numeral is skipped, digits of any script count, and a single underscore
may stand between two digits.

An integer numeral has at most `maxDigits` digits; a longer one is refused before its value is
computed.
-/

set_option autoImplicit false

namespace ToonScript.Decimal

open ToonScript.Text

/-- The double nearest to `digits · 10 ^ exponent`, infinite when the decimal is too large.
Exponents far outside the range of a double are settled without computing the power of ten. -/
def ofDecimal (digits : List Char) (exponent : Int) : Float :=
  let mantissa := digitsValue digits
  if mantissa = 0 then 0.0
  else if 400 < exponent then 1.0 / 0.0
  else if exponent + digits.length < -400 then 0.0
  else Float.ofScientific mantissa (exponent < 0) exponent.natAbs

/-- Removes the underscores of a numeral, each of which has to stand between two digits. The
first argument is the character read before. -/
def dropUnderscores : Char → List Char → Option (List Char)
  | previous, [] => if previous = '_' then none else some []
  | previous, c :: rest =>
    if c = '_' then
      if isAsciiDigit previous then dropUnderscores c rest else none
    else if previous = '_' && !isAsciiDigit c then none
    else (dropUnderscores c rest).map (c :: ·)

/-- Splits a leading sign off a numeral; `true` stands for a minus. -/
def splitSign : List Char → Bool × List Char
  | '-' :: rest => (true, rest)
  | '+' :: rest => (false, rest)
  | cs => (false, cs)

/-- The decimal exponent that a text writes: nothing at all, or the letter `e`, a sign and
digits. -/
def readExponent? : List Char → Option Int
  | [] => some 0
  | mark :: rest =>
    let (negative, digits) := splitSign rest
    if (mark = 'e' || mark = 'E') && !digits.isEmpty && digits.all isAsciiDigit then
      some (if negative then -(digitsValue digits : Int) else digitsValue digits)
    else none

/-- The double that an unsigned decimal numeral writes, with a digit on at least one side of its
point. -/
def readDecimal? (cs : List Char) : Option Float :=
  let whole := cs.takeWhile isAsciiDigit
  let rest := cs.dropWhile isAsciiDigit
  let (fraction, rest) := match rest with
    | '.' :: rest => (rest.takeWhile isAsciiDigit, rest.dropWhile isAsciiDigit)
    | _ => ([], rest)
  if whole.isEmpty && fraction.isEmpty then none
  else (readExponent? rest).map fun exponent =>
    ofDecimal (whole ++ fraction) (exponent - fraction.length)

/-- The double that a text writes, or `none` if it writes none. -/
def readFloat? (text : String) : Option Float := do
  let cs ← dropUnderscores ' ' (asciiDigits (trimPadding text.toList))
  let (negative, body) := splitSign cs
  let word := String.ofList (body.map Char.toLower)
  let magnitude ←
    if word = "inf" || word = "infinity" then some (1.0 / 0.0)
    else if word = "nan" then some (0.0 / 0.0)
    else readDecimal? body
  return if negative then -magnitude else magnitude

/-- The greatest number of digits of an integer numeral. -/
def maxDigits : Nat := 4300

/-- Why a text is not read as an integer: it writes none, or one with more than `maxDigits`
digits. -/
inductive IntegerFault where
  | malformed
  | tooLong (digits : Nat)
deriving DecidableEq, Repr

/-- The message about a numeral with too many digits. -/
def tooLongMessage (digits : Nat) : String :=
  s!"Exceeds the limit ({maxDigits} digits) for integer string conversion: value has {digits} digits; " ++
    "use sys.set_int_max_str_digits() to increase the limit"

/-- The integer of a sign and a row of ASCII digits, if the row is not too long. -/
def signedInteger (negative : Bool) (digits : List Char) : Except IntegerFault Int :=
  if maxDigits < digits.length then .error (.tooLong digits.length)
  else .ok (if negative then -(digitsValue digits : Int) else digitsValue digits)

/-- The integer that a text writes. -/
def readInteger (text : String) : Except IntegerFault Int := do
  let (negative, body) := splitSign (asciiDigits (trimPadding text.toList))
  let run := body.takeWhile fun c => isAsciiDigit c || c = '_'
  let rest := body.dropWhile fun c => isAsciiDigit c || c = '_'
  match dropUnderscores ' ' run with
  | none => .error .malformed
  | some digits =>
    let value ← signedInteger negative digits
    if digits.isEmpty || !rest.isEmpty then .error .malformed else .ok value

end ToonScript.Decimal
