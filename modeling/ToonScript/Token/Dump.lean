import ToonScript.Json.Basic
import ToonScript.Token.Basic
import ToonScript.Value.Input

/-!
# Token dumps

A list of tokens can be kept as a value of the data format and run later. `Token.dump` writes
it, `Token.load` reads it. Reading is generous about the payload of a literal: a number may be
given as a text, a truth value as anything, a text as any value that can be shown. It is strict
about kinds, about names of types and about which tokens carry a literal.
-/

set_option autoImplicit false

namespace ToonScript

/-- Why a value of the data format is not read as a list of tokens. A token is inconsistent if
it carries a literal and its kind has none, or the other way round. -/
inductive LoadError where
  | notDump
  | missing (key : String)
  | wrongShape
  | unknownKind (value : Json)
  | unknownType (value : Json)
  | notInteger (text : Text)
  | tooLong (digits : Nat)
  | integerOfNaN
  | integerOfInfinity
  | notFloat (text : Text)
  | floatOverflow
  | notSingleton (text : Text)
  | inconsistent (lexeme : Text) (kind : Token.Kind) (literal : Option Value)

/-- The message of a load error. -/
def LoadError.message : LoadError → String
  | notDump => "Invalid token dump object"
  | missing key => Text.quoted key
  | wrongShape => "wrong shape"
  | unknownKind value => s!"{value.describe} is not a valid TokenType"
  | unknownType value => s!"{value.describe} is not a valid ValueType"
  | notInteger text =>
    "invalid literal for int() with base 10: " ++
      String.ofList ((Text.quoted text).toList.take 200)
  | tooLong digits => Decimal.tooLongMessage digits
  | integerOfNaN => "cannot convert float NaN to integer"
  | integerOfInfinity => "cannot convert float infinity to integer"
  | notFloat text => s!"could not convert string to float: {Text.quoted text}"
  | floatOverflow => "int too large to convert to float"
  | notSingleton text => Value.notSingletonMessage text
  | inconsistent lexeme kind literal =>
    let shown := match literal with
      | some value => value.describe
      | none => "None"
    s!"token {Text.quoted lexeme} of kind {kind.name} has inconsistent literal {shown}"

namespace Json

/-- The integer that a value stands for: a double loses its fraction, a truth value counts as
zero or one, a text is read. -/
def toInteger : Json → Except LoadError Int
  | int n => .ok n
  | bool b => .ok (if b then 1 else 0)
  | float x =>
    if x.isNaN then .error .integerOfNaN
    else if x.isInf then .error .integerOfInfinity
    else .ok (Decimal.Scaled.ofFloat x).truncate
  | str s =>
    match Decimal.readInteger (String.ofList s.chars) with
    | .ok n => .ok n
    | .error .malformed => .error (.notInteger s)
    | .error (.tooLong digits) => .error (.tooLong digits)
  | _ => .error .wrongShape

/-- The double that a value stands for. -/
def toDouble : Json → Except LoadError Float
  | int n =>
    let x := Float.ofInt n
    if x.isInf then .error .floatOverflow else .ok x
  | bool b => .ok (if b then 1.0 else 0.0)
  | float x => .ok x
  | str s =>
    match Decimal.readFloat? (String.ofList s.chars) with
    | some x => .ok x
    | none => .error (.notFloat s)
  | _ => .error .wrongShape

/-- The truth of a value: nothing, zero and what is empty are false. -/
def toTruth : Json → Bool
  | null => false
  | bool b => b
  | int n => n != 0
  | float x => !(x == 0.0)
  | str s => !s.isEmpty
  | arr items => !items.isEmpty
  | obj members => !members.isEmpty

end Json

namespace Value

/-- The payload of a value in the data format. -/
def toData : Value → Json
  | int n => .int n.toInt
  | float x => .float x
  | boolean b => .bool b
  | string s => .str s
  | char c => .str (.singleton c)
  | void | unknown => .null

/-- A value in the data format. -/
def toJson (v : Value) : Json := .obj [("type", .str v.ty.name), ("data", v.toData)]

/-- The value of a type with a given payload. -/
def ofData (ty : Ty) (data : Json) : Except LoadError Value :=
  match ty with
  | .int => return .ofInt (← data.toInteger)
  | .float => return .float (← data.toDouble)
  | .boolean => .ok (.boolean data.toTruth)
  | .string => .ok (.string data.asText)
  | .char =>
    match Value.ofSingleton? data.asText with
    | some v => .ok v
    | none => .error (.notSingleton data.asText)
  | .void => .ok .void
  | .unknown => .ok .unknown

/-- The type that a value of the data format names. -/
def tyOfJson (j : Json) : Except LoadError Ty :=
  match j with
  | .str s => match Ty.ofName? s with
    | some ty => .ok ty
    | none => .error (.unknownType j)
  | _ => .error (.unknownType j)

/-- The value of an object with a type and a payload. -/
def ofJson (j : Json) : Except LoadError Value :=
  match j with
  | .obj _ => do
    match j.member? "type" with
    | none => .error (.missing "type")
    | some name => ofData (← tyOfJson name) ((j.member? "data").getD .null)
  | _ => .error .wrongShape

end Value

namespace Token

/-- A token in the data format. -/
def toJson (t : Token) : Json :=
  .obj [("kind", .str t.kind.name), ("lexeme", .str t.lexeme),
    ("literal", (t.literal.map Value.toJson).getD .null), ("line", .int t.line)]

/-- A list of tokens in the data format. -/
def dump (tokens : List Token) : Json :=
  .obj [("type", .str "Tokens"), ("tokens", .arr (tokens.map toJson))]

/-- The kind that a value of the data format names. -/
def kindOfJson (j : Json) : Except LoadError Kind :=
  match j with
  | .str s => match Kind.ofName? s with
    | some kind => .ok kind
    | none => .error (.unknownKind j)
  | _ => .error (.unknownKind j)

/-- An entry of an object that has to be there. -/
def entry (key : String) (j : Json) : Except LoadError Json :=
  match j.member? key with
  | some value => .ok value
  | none => .error (.missing key)

/-- The literal of a token, where nothing stands for none. -/
def literalOfJson (j : Json) : Except LoadError (Option Value) :=
  match j with
  | .null => .ok none
  | j => return some (← Value.ofJson j)

/-- The token of an object. -/
def ofJson (j : Json) : Except LoadError Token :=
  match j with
  | .obj _ => do
    let kind ← kindOfJson (← entry "kind" j)
    let lexeme := (← entry "lexeme" j).asText
    let literal ← literalOfJson ((j.member? "literal").getD .null)
    let line ← ((j.member? "line").getD (.int 0)).toInteger
    match ofParts? kind lexeme literal line with
    | some token => .ok token
    | none => .error (.inconsistent lexeme kind literal)
  | _ => .error .wrongShape

/-- The tokens that stand for the entry of a dump: the items of an array. An empty text or
object holds no tokens either, and a nonempty one holds no objects. -/
def ofItems (j : Json) : Except LoadError (List Token) :=
  match j with
  | .arr items => items.mapM ofJson
  | .str s => if s.isEmpty then .ok [] else .error .wrongShape
  | .obj members => if members.isEmpty then .ok [] else .error .wrongShape
  | _ => .error .wrongShape

/-- The tokens of a dump. -/
def load (j : Json) : Except LoadError (List Token) :=
  match j.member? "type" with
  | some (.str name) =>
      if name = "Tokens" then do ofItems (← entry "tokens" j) else .error .notDump
  | _ => .error .notDump

end Token

end ToonScript
