import ToonScript.Decimal.Notation
import ToonScript.Text.Quoted

/-!
# Values

A value is an integer of 64 bits, a double, a truth value, a text or a single code point; the
two remaining types, `void` and `unknown`, have one value each. Integers wrap around at the ends
of their range: `wrap` does so with an integer of any size, and `Value.ofInt` makes a value of
what it gives.

A value is shown in two ways: `Value.text` is what a program prints, `Value.describe` names the
type and quotes the payload, for messages and traces.
-/

set_option autoImplicit false

namespace ToonScript

/-- The types of values. -/
inductive Ty where
  | int | float | boolean | string | char | void | unknown
deriving DecidableEq, Repr

namespace Ty

/-- All types. -/
def all : List Ty := [int, float, boolean, string, char, void, unknown]

/-- The name of a type in messages and data files. -/
def name : Ty → String
  | int => "INT"
  | float => "FLOAT"
  | boolean => "BOOLEAN"
  | string => "STRING"
  | char => "CHAR"
  | void => "VOID"
  | unknown => "UNKNOWN"

/-- The type of a name. -/
def ofName? (text : Text) : Option Ty := all.find? fun ty => text == ty.name

/-- The name of a type where a value is described. -/
def title : Ty → String
  | int => "Int"
  | float => "Float"
  | boolean => "Boolean"
  | string => "String"
  | char => "Char"
  | void => "Void"
  | unknown => "Unknown"

/-- Whether arithmetic is defined on a type. -/
def isNumeric : Ty → Bool
  | int | float => true
  | _ => false

end Ty

/-- The least integer of 64 bits, `-2 ^ 63`. -/
def leastInt : Int := -9223372036854775808

/-- The greatest integer of 64 bits, `2 ^ 63 - 1`. -/
def greatestInt : Int := 9223372036854775807

/-- An integer wrapped around into the 64-bit range: its lowest 64 bits, less `2 ^ 64` where
they are too large. -/
def wrap (n : Int) : Int :=
  if n % 18446744073709551616 ≤ greatestInt then n % 18446744073709551616
  else n % 18446744073709551616 - 18446744073709551616

theorem wrap_within (n : Int) : leastInt ≤ wrap n ∧ wrap n ≤ greatestInt := by
  rw [wrap, leastInt, greatestInt]
  split <;> omega

theorem wrap_of_within {n : Int} (within : leastInt ≤ n ∧ n ≤ greatestInt) : wrap n = n := by
  rw [leastInt, greatestInt] at within
  rw [wrap, greatestInt]
  split <;> omega

theorem wrap_wrap (n : Int) : wrap (wrap n) = wrap n := wrap_of_within (wrap_within n)

theorem toInt_ofInt_eq_wrap (n : Int) : (Int64.ofInt n).toInt = wrap n := by
  rw [Int64.toInt_ofInt, Int.bmod_def, wrap, greatestInt, Int64.size]
  split <;> split <;> omega

/-- The values that programs compute with. -/
inductive Value where
  | int (n : Int64)
  | float (x : Float)
  | boolean (b : Bool)
  | string (s : Text)
  | char (c : Point)
  | void
  | unknown
deriving DecidableEq

namespace Value

/-- The type of a value. -/
def ty : Value → Ty
  | int _ => .int
  | float _ => .float
  | boolean _ => .boolean
  | string _ => .string
  | char _ => .char
  | void => .void
  | unknown => .unknown

/-- The integer value of an integer of any size, wrapped around to 64 bits. -/
def ofInt (n : Int) : Value := int (Int64.ofInt (wrap n))

/-- The integer value of an integer holds its lowest 64 bits. -/
theorem ofInt_eq (n : Int) : ofInt n = int (Int64.ofInt n) := by
  rw [ofInt, int.injEq, ← Int64.toInt_inj, toInt_ofInt_eq_wrap, toInt_ofInt_eq_wrap, wrap_wrap]

/-- The character value of a text of exactly one code point. -/
def ofSingleton? (text : Text) : Option Value :=
  match text.points with
  | [c] => some (char c)
  | _ => none

/-- The message about a text that should be a single character. -/
def notSingletonMessage (text : Text) : String :=
  s!"char value must be a single character, got {Text.quoted text}"

/-- What printing a value shows. -/
def text : Value → Text
  | int n => toString n.toInt
  | float x => Decimal.Layout.plain.render x
  | boolean b => if b then "true" else "false"
  | string s => s
  | char c => .singleton c
  | void => "null (VOID)"
  | unknown => "null (UNKNOWN)"

/-- The payload of a value where the value is described. -/
def payload : Value → String
  | int n => toString n.toInt
  | float x => Decimal.Layout.plain.render x
  | boolean b => if b then "True" else "False"
  | string s => Text.quoted s
  | char c => Text.quoted (.singleton c)
  | void | unknown => ""

/-- The type of a value and its payload, as messages and traces show it. -/
def describe (v : Value) : String := s!"{v.ty.title}({v.payload})"

end Value

end ToonScript
