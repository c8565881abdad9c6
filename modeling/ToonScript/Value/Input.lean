import ToonScript.Decimal.Numeral
import ToonScript.Value.Arithmetic

/-!
# Values from input lines

A line that a user types becomes a value of the type that the receiving variable has. Integers
are a sign and ASCII digits with nothing around them and must fit into 64 bits; doubles are read
by `readFloat?`; truth values are the two words of the language in any letter case; a text is
taken as it is, and a character is a text of length one. The types `void` and `unknown` take no
input.
-/

set_option autoImplicit false

namespace ToonScript

open ToonScript.Text

/-- Why an input line gives no value. -/
inductive InputError where
  | notInteger (text : Text)
  | tooLong (digits : Nat)
  | outOfRange (text : Text)
  | notFloat (text : Text)
  | notBoolean (text : Text)
  | notChar (text : Text)
  | noInput (ty : Ty)
deriving DecidableEq

/-- The word that stands for truth. -/
def trueWord : String := "rik"

/-- The word that stands for falsehood. -/
def falseWord : String := "morti"

/-- The message of an input error. -/
def InputError.message : InputError → String
  | notInteger text => s!"cannot parse int from {quoted text}"
  | tooLong digits => Decimal.tooLongMessage digits
  | outOfRange text => s!"integer out of range: {quoted text}"
  | notFloat text => s!"cannot parse float from {quoted text}"
  | notBoolean text =>
    s!"invalid boolean input {quoted text}, expected '{trueWord}' or '{falseWord}'"
  | notChar text => s!"invalid char input {quoted text}, expected a single character"
  | noInput ty => s!"unsupported type for input: {ty.name}"

/-- The lower-case form of a character, as far as it matters for a comparison with ASCII words:
outside ASCII only the Kelvin sign has an ASCII letter as its lower-case form. -/
def foldCase (c : Char) : Char :=
  if c.toNat = 0x212A then 'k' else c.toLower

/-- The integer of a typed line. -/
def readIntegerLine (text : Text) : Except InputError Value :=
  let (negative, digits) := Decimal.splitSign text.chars
  if digits.isEmpty || !digits.all isAsciiDigit then .error (.notInteger text)
  else match Decimal.signedInteger negative digits with
    | .error _ => .error (.tooLong digits.length)
    | .ok n =>
        if leastInt ≤ n ∧ n ≤ greatestInt then .ok (.ofInt n) else .error (.outOfRange text)

/-- The truth value of a typed line. -/
def readBooleanLine (text : Text) : Except InputError Value :=
  let word := String.ofList (text.chars.map foldCase)
  if word = trueWord then .ok (.boolean true)
  else if word = falseWord then .ok (.boolean false)
  else .error (.notBoolean text)

/-- The value of a given type that a typed line stands for. -/
def Value.ofInput (ty : Ty) (text : Text) : Except InputError Value :=
  match ty with
  | .int => readIntegerLine text
  | .float =>
    match Decimal.readFloat? (String.ofList text.chars) with
    | some x => .ok (.float x)
    | none => .error (.notFloat text)
  | .boolean => readBooleanLine text
  | .string => .ok (.string text)
  | .char =>
    match Value.ofSingleton? text with
    | some v => .ok v
    | none => .error (.notChar text)
  | .void => .error (.noInput .void)
  | .unknown => .error (.noInput .unknown)

end ToonScript
