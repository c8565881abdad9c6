import ToonScript.Failure

/-!
# The cursor

A program is never turned into a tree: it is read token by token with a cursor, which knows the
tokens ahead and the one just passed. A `Scan` is a computation that moves the cursor and may
stop; when it stops, the cursor stays where it got to.

`Cursor.closing?` finds the token that closes a bracket already opened, by counting openers and
closers.
-/

set_option autoImplicit false

namespace ToonScript

/-- Why a computation stops before its end: the program fails, a remainder of an infinite
dividend is asked for, which no program failure describes, or the budget of steps is used up. -/
inductive Stop where
  | failure (cause : Failure)
  | undefinedRemainder
  | outOfSteps
deriving DecidableEq

/-- The stop of an operator that gives no value. -/
def Stop.ofOperation : OperationError → Stop
  | .infiniteDividend => .undefinedRemainder
  | error => .failure (.operation error)

/-- A place between two tokens of a program: the token just passed, if there is one, and the
tokens ahead. -/
structure Cursor where
  last : Option Token
  rest : List Token
deriving DecidableEq

/-- A computation that moves a cursor. -/
abbrev Scan (α : Type) := EStateM Stop Cursor α

namespace Cursor

/-- The place before the first token. -/
def start (tokens : List Token) : Cursor := ⟨none, tokens⟩

/-- The place before the token of an index, counted from zero. -/
def atIndex (tokens : List Token) (index : Nat) : Cursor :=
  ⟨if index = 0 then none else tokens[index - 1]?, tokens.drop index⟩

/-- The place of a cursor in its program, counted from zero. -/
def position (tokens : List Token) (cursor : Cursor) : Nat := tokens.length - cursor.rest.length

/-- The token a number of places ahead. -/
def peek (cursor : Cursor) (offset : Nat) : Option Token := cursor.rest[offset]?

/-- Whether there is a next token and its kind is accepted. -/
def check (cursor : Cursor) (accepts : Token.Kind → Bool) : Bool :=
  match cursor.rest with
  | token :: _ => accepts token.kind
  | [] => false

/-- The place behind the token that brings the balance of openers and closers down to zero. A
kind that opens and closes only opens. -/
def closingFrom (opener closer : Token.Kind) : Nat → List Token → Option Cursor
  | _, [] => none
  | balance, token :: rest =>
    let balance :=
      if token.kind = opener then balance + 1
      else if token.kind = closer then balance - 1
      else balance
    if balance = 0 then some ⟨some token, rest⟩ else closingFrom opener closer balance rest

/-- The place behind the closer of a bracket whose opener was just passed. -/
def closing? (cursor : Cursor) (opener closer : Token.Kind) : Option Cursor :=
  closingFrom opener closer 1 cursor.rest

/-- The failure of a bracket that is never closed; it points at the token before the place. -/
def unmatched (cursor : Cursor) (opener : Token.Kind) (what : String) : Failure :=
  .structural (.unmatched opener what) cursor.last

end Cursor

namespace Scan

/-- Stops with a failure. -/
def fail {α : Type} (cause : Failure) : Scan α := throw (.failure cause)

/-- Passes the next token. -/
def advance : Scan Token := fun cursor =>
  match cursor.rest with
  | token :: rest => .ok token ⟨some token, rest⟩
  | [] => fail (.structural .endOfInput none) cursor

/-- Passes the next token, which has to be of a kind; the context completes the message if it is
not. -/
def expect (kind : Token.Kind) (context : Text) : Scan Token := fun cursor =>
  match cursor.rest with
  | token :: rest =>
    if token.kind = kind then .ok token ⟨some token, rest⟩
    else fail (.structural (.expected kind context) (some token)) cursor
  | [] => fail (.structural (.expected kind context) none) cursor

/-- The place behind the closer of the bracket whose opener was just passed. The cursor does not
move. -/
def closing (opener closer : Token.Kind) (what : String) : Scan Cursor := fun cursor =>
  match cursor.closing? opener closer with
  | some after => .ok after cursor
  | none => fail (cursor.unmatched opener what) cursor

/-- Passes the rest of a block whose opener was passed before, with its closer. -/
def skipBlock : Scan Unit := do
  set (← closing .blockOpen .blockClose "block")

end Scan

end ToonScript
