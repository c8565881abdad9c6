import ToonScript.Token.Vocabulary

/-!
# Failures of a program

A run that cannot go on fails with a cause. Structural failures are about the shape of the
program and point at the token at which it broke; all others are about names, types, division
and input and carry no token. The wording of every message is in `Structural.message` and
`Failure.message`; `Failure.text` is the line that a report shows.
-/

set_option autoImplicit false

namespace ToonScript

/-- What is wrong with the shape of a program. A token of a kind is expected at a place that the
context tells, or an opener has no partner, or the tokens end too early. -/
inductive Structural where
  | expected (kind : Token.Kind) (context : Text)
  | unmatched (opener : Token.Kind) (what : String)
  | invalidStatement
  | unexpectedToken
  | endOfInput
  | endOfExpression
  | unclosedBlock
  | nestedTooDeeply
deriving DecidableEq

/-- How messages name a kind: by its fixed spelling, or by its name if it has none. -/
def Token.Kind.display (kind : Token.Kind) : String := kind.spelling?.getD kind.name

/-- The message of a structural problem. -/
def Structural.message : Structural → Text
  | expected kind context => "expected '" ++ kind.display ++ "' " ++ context
  | unmatched opener what => s!"unmatched '{opener.display}' in {what}"
  | invalidStatement => "invalid statement"
  | unexpectedToken => "unexpected token in expression"
  | endOfInput => "unexpected end of input"
  | endOfExpression => "unexpected end of input in expression"
  | unclosedBlock => s!"expected '{Token.Kind.blockClose.display}' to close block"
  | nestedTooDeeply => "expression nested too deeply"

/-- Why a program failed. A structural failure has no token if the tokens end. A mismatch is a
failure only under strict types. -/
inductive Failure where
  | structural (problem : Structural) (token : Option Token)
  | undefined (name : Text)
  | redeclared (name : Text)
  | undeclared (name : Text)
  | undeclaredInput (name : Text)
  | mismatch (name : Text) (current assigned : Ty)
  | operation (error : OperationError)
  | condition (ty : Ty)
  | input (name : Text) (error : InputError)
deriving DecidableEq

namespace Failure

/-- The categories of failures. -/
inductive Category where
  | structural | name | type | division | value
deriving DecidableEq, Repr

/-- The name of a category in reports. -/
def Category.label : Category → String
  | structural => "SyntaxError"
  | name => "NameError"
  | type => "TypeError"
  | division => "ZeroDivisionError"
  | value => "ValueError"

/-- The category of a failure. -/
def category : Failure → Category
  | structural _ _ => .structural
  | undefined _ | redeclared _ | undeclared _ | undeclaredInput _ => .name
  | mismatch _ _ _ | condition _ => .type
  | operation .divisionByZero | operation .moduloByZero => .division
  | operation _ => .type
  | input _ (.noInput _) => .type
  | input _ _ => .value

/-- The message about a value of another type than the variable has. -/
def mismatchMessage (name : Text) (current assigned : Ty) : Text :=
  "type mismatch for variable " ++ name ++ ": current " ++ current.name ++
    ", assigned " ++ assigned.name

/-- The message of a failure. A structural one names the line of its token, if the token has
one. -/
def message : Failure → Text
  | structural problem (some token) =>
    if token.line = 0 then problem.message else problem.message ++ s!" (line {token.line})"
  | structural problem none => problem.message
  | undefined name => "undefined variable " ++ name
  | redeclared name => "variable " ++ name ++ " already declared"
  | undeclared name => "variable " ++ name ++ " not declared before assignment"
  | undeclaredInput name => "variable " ++ name ++ " not declared for input"
  | mismatch name current assigned => mismatchMessage name current assigned
  | operation error => error.message
  | condition ty => s!"if condition must evaluate to BOOLEAN, got {ty.name}"
  | input name error => "input for variable " ++ name ++ ": " ++ error.message

/-- The text and the kind of the token that a structural failure points at; the end of the
tokens counts as a token of its own. -/
def location? : Failure → Option (Text × String)
  | structural _ (some token) => some (token.lexeme, token.kind.name)
  | structural _ none => some ("EOF", "EOF")
  | _ => none

/-- The line of a report about a failure. -/
def text (failure : Failure) : Text :=
  let head := failure.category.label ++ ": " ++ failure.message
  match failure.location? with
  | some (lexeme, kind) => head ++ " (token " ++ Text.quoted lexeme ++ ", kind " ++ kind ++ ")"
  | none => head

end Failure

end ToonScript
