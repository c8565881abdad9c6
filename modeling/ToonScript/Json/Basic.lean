import ToonScript.Decimal.Notation
import ToonScript.Text.Quoted

/-!
# Json values

A value of the data format, with two kinds of number: an integer of any size, and a double,
which is what a numeral with a fraction or an exponent stands for. An object keeps its members
in the order in which their keys first occurred.

`Json.describe` is how messages show a value of the format.
-/

set_option autoImplicit false

namespace ToonScript

/-- Values of the data format. -/
inductive Json where
  | null
  | bool (b : Bool)
  | int (n : Int)
  | float (x : Float)
  | str (s : Text)
  | arr (items : List Json)
  | obj (members : List (Text × Json))

namespace Json

/-- Gives a key a value. A key that occurs already keeps its place and takes the new value. -/
def setMember (key : Text) (value : Json) : List (Text × Json) → List (Text × Json)
  | [] => [(key, value)]
  | member :: rest =>
    if member.1 = key then (key, value) :: rest else member :: setMember key value rest

/-- The value of a key of an object. -/
def member? (key : Text) : Json → Option Json
  | obj members => (members.find? fun member => member.1 == key).map (·.2)
  | _ => none

mutual

/-- A value as messages show it. -/
def describe : Json → String
  | null => "None"
  | bool b => if b then "True" else "False"
  | int n => toString n
  | float x => Decimal.Layout.plain.render x
  | str s => Text.quoted s
  | arr items => "[" ++ describeItems items ++ "]"
  | obj members => "\x7b" ++ describeMembers members ++ "\x7d"

/-- The items of an array as messages show them. -/
def describeItems : List Json → String
  | [] => ""
  | [item] => item.describe
  | item :: next :: rest => item.describe ++ ", " ++ describeItems (next :: rest)

/-- The members of an object as messages show them. -/
def describeMembers : List (Text × Json) → String
  | [] => ""
  | [(key, value)] => Text.quoted key ++ ": " ++ value.describe
  | (key, value) :: next :: rest =>
    Text.quoted key ++ ": " ++ value.describe ++ ", " ++ describeMembers (next :: rest)

end

/-- The text of a value that stands for a text: a text is taken as it is, any other value as
messages show it. -/
def asText : Json → Text
  | str s => s
  | value => value.describe

end Json

end ToonScript
