import ToonScript.Failure

/-!
# The environment

There is one flat scope. A name is declared once and keeps its place; assigning changes only its
value. A value of another type than the current one may be assigned, unless types are strict,
and is recorded as a mismatch. The two numeric types agree with each other, and `unknown` agrees
with every type.
-/

set_option autoImplicit false

namespace ToonScript

/-- Names and their values, in the order of declaration. -/
abbrev Bindings := List (Text × Value)

namespace Bindings

/-- The value of a name. -/
def get? (bindings : Bindings) (name : Text) : Option Value :=
  match bindings with
  | [] => none
  | (key, value) :: rest => if key = name then some value else get? rest name

/-- Gives a declared name a new value; the names and their order stay as they are. -/
def set (bindings : Bindings) (name : Text) (value : Value) : Bindings :=
  match bindings with
  | [] => []
  | (key, old) :: rest =>
      if key = name then (key, value) :: rest else (key, old) :: set rest name value

end Bindings

/-- An assignment of a value whose type does not agree with the current one. -/
structure Mismatch where
  name : Text
  current : Ty
  assigned : Ty
deriving DecidableEq

/-- The warning about a mismatch. -/
def Mismatch.message (m : Mismatch) : Text :=
  Failure.mismatchMessage m.name m.current m.assigned

/-- Whether a value of type `assigned` may take the place of one of type `current` without
remark. -/
def Ty.agrees (current assigned : Ty) : Bool :=
  current == assigned || current == .unknown || assigned == .unknown ||
    (current.isNumeric && assigned.isNumeric)

/-- The variables of a run, the mismatches so far, and whether a mismatch is a failure. -/
structure Environment where
  strict : Bool
  bindings : Bindings := []
  mismatches : Array Mismatch := #[]
deriving DecidableEq

namespace Environment

/-- The value of a declared name. -/
def lookup (env : Environment) (name : Text) : Except Failure Value :=
  match env.bindings.get? name with
  | some value => .ok value
  | none => .error (.undefined name)

/-- Whether a name is declared. -/
def declares (env : Environment) (name : Text) : Bool := (env.bindings.get? name).isSome

/-- Declares a new name, after all others. -/
def declare (env : Environment) (name : Text) (value : Value) : Except Failure Environment :=
  if env.declares name then .error (.redeclared name)
  else .ok { env with bindings := env.bindings ++ [(name, value)] }

/-- Assigns a declared name. The mismatch, if there is one, is recorded and returned. -/
def assign (env : Environment) (name : Text) (value : Value) :
    Except Failure (Environment × Option Mismatch) :=
  match env.bindings.get? name with
  | none => .error (.undeclared name)
  | some old =>
    let bindings := env.bindings.set name value
    if old.ty.agrees value.ty then .ok ({ env with bindings }, none)
    else if env.strict then .error (.mismatch name old.ty value.ty)
    else
      let mismatch := ⟨name, old.ty, value.ty⟩
      .ok ({ env with bindings, mismatches := env.mismatches.push mismatch }, some mismatch)

/-- The warnings so far. -/
def warnings (env : Environment) : List Text := env.mismatches.toList.map Mismatch.message

end Environment

end ToonScript
