import ToonScript.Value.Basic

/-!
# Tokens

A token is a chunk of source text together with its kind and the number of its line. Exactly the
tokens of the literal kinds (numbers, quoted texts and the two truth words) carry a value; the
type holds this as a proof, so that a program never meets a number without its value.
-/

set_option autoImplicit false

namespace ToonScript

namespace Token

/-- The kinds of tokens: statement words, names of types, literals and identifiers, operators,
signs. -/
inductive Kind where
  | ifKw | elseKw | whileKw | forKw | returnKw | switchKw | caseKw | breakKw
  | continueKw | inputKw | printKw | varKw
  | intType | stringType | booleanType | floatType | charType
  | trueLit | falseLit | number | stringLit | identifier
  | assign | plusAssign | minusAssign | plus | minus | divide | power | mod
  | equal | notEqual | lessThan | greaterThan | lessEqual | greaterEqual
  | and | andAnd | or | orOr
  | question | exclamation | colon | semicolon
  | groupOpen | groupClose | blockOpen | blockClose | bracketOpen | bracketClose
      | marker | unknown
deriving DecidableEq, Repr

namespace Kind

/-- All kinds. -/
def all : List Kind :=
  [ifKw, elseKw, whileKw, forKw, returnKw, switchKw, caseKw, breakKw, continueKw, inputKw,
    printKw, varKw, intType, stringType, booleanType, floatType, charType,
    trueLit, falseLit, number, stringLit, identifier,
    assign, plusAssign, minusAssign, plus, minus, divide, power, mod,
    equal, notEqual, lessThan, greaterThan, lessEqual, greaterEqual,
    and, andAnd, or, orOr,
    question, exclamation, colon, semicolon,
    groupOpen, groupClose, blockOpen, blockClose, bracketOpen, bracketClose, marker, unknown]

/-- The name of a kind in messages and data files. -/
def name : Kind → String
  | ifKw => "IF"
  | elseKw => "ELSE"
  | whileKw => "WHILE"
  | forKw => "FOR"
  | returnKw => "RETURN"
  | switchKw => "SWITCH"
  | caseKw => "CASE"
  | breakKw => "BREAK"
  | continueKw => "CONTINUE"
  | inputKw => "INPUT"
  | printKw => "PRINT"
  | varKw => "VAR"
  | intType => "INT_TYPE"
  | stringType => "STRING_TYPE"
  | booleanType => "BOOLEAN_TYPE"
  | floatType => "FLOAT_TYPE"
  | charType => "CHAR_TYPE"
  | trueLit => "TRUE"
  | falseLit => "FALSE"
  | number => "NUMBER"
  | stringLit => "STRING_LITERAL"
  | identifier => "IDENTIFIER"
  | assign => "ASSIGN"
  | plusAssign => "PLUS_ASSIGN"
  | minusAssign => "MINUS_ASSIGN"
  | plus => "PLUS"
  | minus => "MINUS"
  | divide => "DIVIDE"
  | power => "POWER"
  | mod => "MOD"
  | equal => "EQUAL"
  | notEqual => "NOT_EQUAL"
  | lessThan => "LESS_THAN"
  | greaterThan => "GREATER_THAN"
  | lessEqual => "LESS_EQUAL"
  | greaterEqual => "GREATER_EQUAL"
  | and => "AND"
  | andAnd => "AND_AND"
  | or => "OR"
  | orOr => "OR_OR"
  | question => "QUESTION"
  | exclamation => "EXCLAMATION"
  | colon => "COLON"
  | semicolon => "SEMICOLON"
  | groupOpen => "LPAREN"
  | groupClose => "RPAREN"
  | blockOpen => "LBRACE"
  | blockClose => "RBRACE"
  | bracketOpen => "LBRACKET"
  | bracketClose => "RBRACKET"
  | marker => "START_LINE"
  | unknown => "UNKNOWN"

/-- The kind of a name. -/
def ofName? (text : Text) : Option Kind := all.find? fun kind => text == kind.name

/-- Whether tokens of a kind carry a value. -/
def isLiteral : Kind → Bool
  | number | stringLit | trueLit | falseLit => true
  | _ => false

end Kind

end Token

/-- A chunk of source text with its kind, the value of a literal and the number of its line.
Exactly the literal kinds carry a value. Line `0` stands for no line. -/
structure Token where
  kind : Token.Kind
  lexeme : Text
  literal : Option Value
  line : Int
  literal_isSome : literal.isSome = kind.isLiteral
deriving DecidableEq

namespace Token

/-- The token of given parts, if a value is given exactly for a literal kind. -/
def ofParts? (kind : Kind) (lexeme : Text) (literal : Option Value) (line : Int) :
    Option Token :=
  if h : literal.isSome = kind.isLiteral then some ⟨kind, lexeme, literal, line, h⟩ else none

/-- Whether the texts of a token have an encoding. -/
def encodable (t : Token) : Bool := t.lexeme.encodable && t.literal.all (·.text.encodable)

/-- A token as traces show it. -/
def describe (t : Token) : Text :=
  let value : Text := match t.literal with
    | some v => ", value=" ++ v.text
    | none => ""
  "Token\x7btype=" ++ t.kind.name ++ ", lexeme='" ++ t.lexeme ++ "'" ++ value ++ "\x7d"

end Token

end ToonScript
