import ToonScript.Machine.Statement
import ToonScript.Proofs.Sequencing

/-!
# Primitive computations of the machine

Statements are put together from a few primitive computations. For those that move the cursor
this module says when they succeed and where they lead; the others are still, which means that
they leave the cursor where it is. For all that can stop it says for which reasons they do.
Later proofs about statements use these facts and do not unfold the primitives again.
-/

set_option autoImplicit false

namespace ToonScript

open Token (Kind)

namespace Exec

variable {α β : Type} {machine after : Machine}

/-! ## Computations that move the cursor -/

theorem scan_of_ok {computation : Scan α} {a : α} {cursor : Cursor}
    (succeeds : computation machine.cursor = .ok a cursor) :
    scan computation machine = .ok a { machine with cursor } := by
  simp only [scan, succeeds]

theorem scan_of_error {computation : Scan α} {stop : Stop} {cursor : Cursor}
    (stops : computation machine.cursor = .error stop cursor) :
    scan computation machine = .error stop { machine with cursor } := by
  simp only [scan, stops]

theorem scan_eq_ok {computation : Scan α} {a : α} :
    scan computation machine = .ok a after ↔
      ∃ cursor, computation machine.cursor = .ok a cursor ∧
        { machine with cursor } = after := by
  constructor
  · intro succeeds
    cases scanned : computation machine.cursor with
    | ok b cursor =>
        rw [scan_of_ok scanned] at succeeds
        cases succeeds
        exact ⟨cursor, rfl, rfl⟩
    | error stop cursor =>
        rw [scan_of_error scanned] at succeeds
        cases succeeds
  · rintro ⟨cursor, scanned, rfl⟩
    exact scan_of_ok scanned

theorem scan_eq_error {computation : Scan α} {reason : Stop} :
    scan computation machine = .error reason after ↔
      ∃ cursor, computation machine.cursor = .error reason cursor ∧
        { machine with cursor } = after := by
  constructor
  · intro stops
    cases scanned : computation machine.cursor with
    | ok b cursor =>
        rw [scan_of_ok scanned] at stops
        cases stops
    | error stop cursor =>
        rw [scan_of_error scanned] at stops
        cases stops
        exact ⟨cursor, rfl, rfl⟩
  · rintro ⟨cursor, scanned, rfl⟩
    exact scan_of_error scanned

theorem pass_eq_ok {u : Unit} :
    pass machine = .ok u after ↔
      ∃ token rest, machine.cursor.rest = token :: rest ∧
        { machine with cursor := ⟨some token, rest⟩ } = after := by
  constructor
  · intro succeeds
    obtain ⟨token, middle, advanced, returned⟩ := bind_eq_ok.mp succeeds
    obtain ⟨cursor, passed, rfl⟩ := scan_eq_ok.mp advanced
    obtain ⟨-, rfl⟩ := pure_eq_ok.mp returned
    obtain ⟨parts, isLast⟩ := Scan.advance_eq_ok.mp passed
    obtain ⟨last, rest⟩ := cursor
    cases isLast
    exact ⟨token, rest, parts, rfl⟩
  · rintro ⟨token, rest, parts, rfl⟩
    exact bind_of_ok (scan_of_ok (Scan.advance_eq_ok.mpr ⟨parts, rfl⟩))

theorem expect_eq_ok {kind : Kind} {context : Text} {u : Unit} :
    expect kind context machine = .ok u after ↔
      ∃ token rest, machine.cursor.rest = token :: rest ∧ token.kind = kind ∧
        { machine with cursor := ⟨some token, rest⟩ } = after := by
  constructor
  · intro succeeds
    obtain ⟨token, middle, expected, returned⟩ := bind_eq_ok.mp succeeds
    obtain ⟨cursor, passed, rfl⟩ := scan_eq_ok.mp expected
    obtain ⟨-, rfl⟩ := pure_eq_ok.mp returned
    obtain ⟨parts, isLast, wanted⟩ := Scan.expect_eq_ok.mp passed
    obtain ⟨last, rest⟩ := cursor
    cases isLast
    exact ⟨token, rest, parts, wanted, rfl⟩
  · rintro ⟨token, rest, parts, wanted, rfl⟩
    exact bind_of_ok (scan_of_ok (Scan.expect_eq_ok.mpr ⟨parts, rfl, wanted⟩))

theorem expect_of_kind {kind : Kind} {token : Token} {rest : List Token}
    (parts : machine.cursor.rest = token :: rest) (wanted : token.kind = kind)
    (context : Text) :
    expect kind context machine = .ok () { machine with cursor := ⟨some token, rest⟩ } :=
  expect_eq_ok.mpr ⟨token, rest, parts, wanted, rfl⟩

theorem expect_of_ne {kind : Kind} {token : Token} {rest : List Token}
    (parts : machine.cursor.rest = token :: rest) (other : token.kind ≠ kind) (context : Text) :
    expect kind context machine =
      .error (.failure (.structural (.expected kind context) (some token))) machine := by
  obtain ⟨⟨last, _⟩, env, flags, returnValue, console⟩ := machine
  obtain rfl := parts
  refine bind_of_error (scan_of_error ?_)
  simp only [Scan.expect, other, ↓reduceIte]
  rfl

theorem expectName_eq_ok {context name : Text} :
    expectName context machine = .ok name after ↔
      ∃ token rest, machine.cursor.rest = token :: rest ∧ token.kind = .identifier ∧
        token.lexeme = name ∧ { machine with cursor := ⟨some token, rest⟩ } = after := by
  constructor
  · intro succeeds
    obtain ⟨token, middle, expected, returned⟩ := bind_eq_ok.mp succeeds
    obtain ⟨cursor, passed, rfl⟩ := scan_eq_ok.mp expected
    obtain ⟨named, rfl⟩ := pure_eq_ok.mp returned
    obtain ⟨parts, isLast, wanted⟩ := Scan.expect_eq_ok.mp passed
    obtain ⟨last, rest⟩ := cursor
    cases isLast
    exact ⟨token, rest, parts, wanted, named, rfl⟩
  · rintro ⟨token, rest, parts, wanted, rfl, rfl⟩
    exact bind_of_ok (scan_of_ok (Scan.expect_eq_ok.mpr ⟨parts, rfl, wanted⟩))

theorem evaluate_eq (machine : Machine) :
    evaluate machine =
      scan (Expression.evaluate machine.console.groupLimit machine.env.bindings) machine := rfl

theorem evaluate_eq_ok {value : Value} :
    evaluate machine = .ok value after ↔
      ∃ cursor, Expression.evaluate machine.console.groupLimit machine.env.bindings
        machine.cursor = .ok value cursor ∧ { machine with cursor } = after :=
  scan_eq_ok

theorem closing_eq_ok {opener closer : Kind} {what : String} {place : Cursor} :
    scan (Scan.closing opener closer what) machine = .ok place after ↔
      machine.cursor.closing? opener closer = some place ∧ machine = after := by
  rw [scan_eq_ok]
  simp only [Scan.closing]
  cases found : machine.cursor.closing? opener closer with
  | some closed =>
      simp only [EStateM.Result.ok.injEq, Option.some.injEq]
      constructor
      · rintro ⟨cursor, ⟨rfl, rfl⟩, rfl⟩
        exact ⟨rfl, rfl⟩
      · rintro ⟨rfl, rfl⟩
        exact ⟨machine.cursor, ⟨rfl, rfl⟩, rfl⟩
  | none =>
      constructor
      · rintro ⟨cursor, stops, -⟩
        cases stops
      · rintro ⟨nowhere, -⟩
        cases nowhere

theorem closing_of_none {opener closer : Kind}
    (unclosed : machine.cursor.closing? opener closer = none) (what : String) :
    scan (Scan.closing opener closer what) machine =
      .error (.failure (machine.cursor.unmatched opener what)) machine := by
  have stopped : Scan.closing opener closer what machine.cursor =
      .error (.failure (machine.cursor.unmatched opener what)) machine.cursor := by
    simp only [Scan.closing, unclosed]
    rfl
  rw [scan_of_error stopped]

/-- Passing over a block is finding its end and moving there. -/
theorem skipBlock_eq :
    skipBlock = (scan (Scan.closing .blockOpen .blockClose "block") >>= moveTo) := by
  funext machine
  cases found : machine.cursor.closing? .blockOpen .blockClose with
  | some closed =>
      rw [bind_of_ok (closing_eq_ok.mpr ⟨found, rfl⟩)]
      have located : Scan.closing .blockOpen .blockClose "block" machine.cursor =
          .ok closed machine.cursor := by
        simp only [Scan.closing, found]
      have skipped : Scan.skipBlock machine.cursor = .ok () closed := bind_of_ok located
      exact scan_of_ok skipped
  | none =>
      rw [bind_of_error (closing_of_none found "block")]
      have stopped : Scan.skipBlock machine.cursor =
          .error (.failure (machine.cursor.unmatched .blockOpen "block")) machine.cursor := by
        refine bind_of_error ?_
        simp only [Scan.closing, found]
        rfl
      exact scan_of_error stopped

theorem skipBlock_eq_ok {u : Unit} :
    skipBlock machine = .ok u after ↔
      ∃ cursor, machine.cursor.closing? .blockOpen .blockClose = some cursor ∧
        { machine with cursor } = after := by
  rw [skipBlock_eq]
  constructor
  · intro skipped
    obtain ⟨closed, _, located, moved⟩ := bind_eq_ok.mp skipped
    obtain ⟨found, rfl⟩ := closing_eq_ok.mp located
    cases moved
    exact ⟨closed, found, rfl⟩
  · rintro ⟨closed, found, rfl⟩
    exact bind_of_ok (closing_eq_ok.mpr ⟨found, rfl⟩)

/-! ## Where these computations stop -/

section Stopping

variable {reason : Stop}

theorem pass_eq_error (stops : pass machine = .error reason after) :
    reason = .failure (.structural .endOfInput none) ∧ machine.cursor.rest = [] ∧
      machine = after := by
  obtain failed | ⟨_, _, _, ended⟩ := bind_eq_error.mp stops
  · obtain ⟨cursor, advanced, rfl⟩ := scan_eq_error.mp failed
    obtain ⟨rfl, ended, rfl⟩ := Scan.advance_eq_error advanced
    exact ⟨rfl, ended, rfl⟩
  · cases ended

theorem expect_eq_error {kind : Kind} {context : Text}
    (stops : expect kind context machine = .error reason after) :
    reason = .failure (.structural (.expected kind context) machine.cursor.rest.head?) ∧
      machine = after := by
  obtain failed | ⟨_, _, _, ended⟩ := bind_eq_error.mp stops
  · obtain ⟨cursor, expected, rfl⟩ := scan_eq_error.mp failed
    obtain ⟨rfl, rfl⟩ := Scan.expect_eq_error expected
    exact ⟨rfl, rfl⟩
  · cases ended

theorem expectName_eq_error {context : Text}
    (stops : expectName context machine = .error reason after) :
    reason = .failure (.structural (.expected .identifier context) machine.cursor.rest.head?) ∧
      machine = after := by
  obtain failed | ⟨_, _, _, ended⟩ := bind_eq_error.mp stops
  · obtain ⟨cursor, expected, rfl⟩ := scan_eq_error.mp failed
    obtain ⟨rfl, rfl⟩ := Scan.expect_eq_error expected
    exact ⟨rfl, rfl⟩
  · cases ended

theorem closing_eq_error {opener closer : Kind} {what : String}
    (stops : scan (Scan.closing opener closer what) machine = .error reason after) :
    reason = .failure (machine.cursor.unmatched opener what) ∧ machine = after := by
  obtain ⟨cursor, unclosed, rfl⟩ := scan_eq_error.mp stops
  obtain ⟨rfl, rfl⟩ := Scan.closing_eq_error unclosed
  exact ⟨rfl, rfl⟩

theorem skipBlock_eq_error (stops : skipBlock machine = .error reason after) :
    reason = .failure (machine.cursor.unmatched .blockOpen "block") ∧ machine = after := by
  rw [skipBlock_eq] at stops
  obtain unclosed | ⟨_, _, _, moved⟩ := bind_eq_error.mp stops
  · exact closing_eq_error unclosed
  · cases moved

end Stopping

/-! ## Computations that leave the cursor where it is -/

/-- A computation that does not move the cursor where it succeeds. -/
def Still (computation : Exec α) : Prop :=
  ∀ machine a after, computation machine = .ok a after → after.cursor = machine.cursor

namespace Still

theorem bind {first : Exec α} {next : α → Exec β} (still : Still first)
    (stillNext : ∀ a, Still (next a)) : Still (first >>= next) := by
  intro machine b after succeeds
  obtain ⟨a, middle, begun, ended⟩ := bind_eq_ok.mp succeeds
  rw [stillNext a _ _ _ ended, still _ _ _ begun]

theorem pure (a : α) : Still (pure a : Exec α) := by
  intro machine b after succeeds
  obtain ⟨-, rfl⟩ := pure_eq_ok.mp succeeds
  rfl

theorem throw (stop : Stop) : Still (throw stop : Exec α) := by
  intro machine a after succeeds
  cases succeeds

theorem get : Still (get : Exec Machine) := by
  intro machine a after succeeds
  cases succeeds
  rfl

theorem modify {change : Machine → Machine}
    (keeps : ∀ machine, (change machine).cursor = machine.cursor) :
    Still (modify change : Exec Unit) := by
  intro machine a after succeeds
  cases succeeds
  exact keeps machine

theorem note (event : Event) : Still (note event) := modify fun _ => rfl

theorem write (line : Text) : Still (write line) := modify fun _ => rfl

theorem read : Still read := by
  intro machine a after succeeds
  cases succeeds
  rfl

theorem lookup (name : Text) : Still (lookup name) := by
  refine get.bind fun machine => ?_
  cases machine.env.lookup name with
  | ok value => exact pure value
  | error cause => exact throw _

theorem declare (name : Text) (value : Value) : Still (declare name value) := by
  refine get.bind fun machine => ?_
  cases machine.env.declare name value with
  | ok env => exact modify fun _ => rfl
  | error cause => exact throw _

theorem assign (name : Text) (value : Value) : Still (assign name value) := by
  refine get.bind fun machine => ?_
  cases machine.env.assign name value with
  | error cause => exact throw _
  | ok assigned =>
      obtain ⟨env, mismatch⟩ := assigned
      refine bind (modify ?_) fun _ => ?_
      · exact fun _ => rfl
      · cases mismatch with
        | some mismatch => exact note _
        | none => exact pure ()

theorem combine (name : Text) (operand : Value) (assignment : Assignment) :
    Still (combine name operand assignment) := by
  cases assignment with
  | plain => exact pure operand
  | combined op =>
      refine (lookup name).bind fun current => ?_
      intro machine value after succeeds
      obtain ⟨cursor, operated, rfl⟩ := scan_eq_ok.mp succeeds
      cases computed : op.apply current operand with
      | ok result =>
          rw [computed] at operated
          cases operated
          rfl
      | error error =>
          rw [computed] at operated
          cases operated

end Still

end Exec

/-! ## Assignments -/

section Assignment

variable {name : Text} {value : Value}

/-- What an assignment does to the variables where it is carried out. -/
structure Environment.Assigned (env : Environment) (name : Text) (value : Value)
    (after : Environment) (mismatch : Option Mismatch) : Prop where
  known : ∃ old, env.bindings.get? name = some old ∧
    mismatch = if old.ty.agrees value.ty then none else some ⟨name, old.ty, value.ty⟩
  bindings : after.bindings = env.bindings.set name value
  strict : after.strict = env.strict
  mismatches : after.mismatches.toList = env.mismatches.toList ++ mismatch.toList

theorem Environment.assign_eq_ok {env after : Environment} {mismatch : Option Mismatch}
    (assigned : env.assign name value = .ok (after, mismatch)) :
    env.Assigned name value after mismatch := by
  unfold assign at assigned
  cases known : env.bindings.get? name with
  | none =>
      rw [known] at assigned
      cases assigned
  | some old =>
      simp only [known] at assigned
      by_cases agrees : old.ty.agrees value.ty
      · simp only [agrees, ↓reduceIte] at assigned
        cases assigned
        exact ⟨⟨old, known, by simp only [agrees, ↓reduceIte]⟩, rfl, rfl,
          (List.append_nil _).symm⟩
      · simp only [agrees, Bool.false_eq_true, ↓reduceIte] at assigned
        split at assigned
        · cases assigned
        · cases assigned
          refine ⟨⟨old, known, ?_⟩, rfl, rfl, Array.toList_push⟩
          simp only [agrees, Bool.false_eq_true, ↓reduceIte]

theorem Environment.assign_eq_error {env : Environment} {cause : Failure}
    (refused : env.assign name value = .error cause) :
    cause = .undeclared name ∨ ∃ old : Value, cause = .mismatch name old.ty value.ty := by
  unfold assign at refused
  cases known : env.bindings.get? name with
  | none =>
      rw [known] at refused
      cases refused
      exact .inl rfl
  | some old =>
      simp only [known] at refused
      split at refused
      · cases refused
      · split at refused
        · cases refused
          exact .inr ⟨old, rfl⟩
        · cases refused

variable {machine : Machine}

theorem Exec.declare_of_known (known : machine.env.declares name = true) :
    declare name value machine = .error (.failure (.redeclared name)) machine := by
  simp only [declare, get_bind, Environment.declare, known, ↓reduceIte]
  rfl

theorem Exec.declare_of_fresh (fresh : machine.env.declares name = false) :
    declare name value machine =
      .ok () { machine with
        env := { machine.env with bindings := machine.env.bindings ++ [(name, value)] } } := by
  simp only [declare, get_bind, Environment.declare, fresh, Bool.false_eq_true, ↓reduceIte]
  rfl

theorem Exec.assign_of_error {cause : Failure}
    (refused : machine.env.assign name value = .error cause) :
    assign name value machine = .error (.failure cause) machine := by
  simp only [assign, get_bind, refused]
  rfl

theorem Exec.assign_of_agreeing {env : Environment}
    (assigned : machine.env.assign name value = .ok (env, none)) :
    assign name value machine = .ok () { machine with env } := by
  simp only [assign, get_bind, assigned]
  rfl

theorem Exec.assign_of_mismatch {env : Environment} {mismatch : Mismatch}
    (assigned : machine.env.assign name value = .ok (env, some mismatch)) :
    assign name value machine =
      .ok () { machine with env, console := machine.console.note (.mismatched mismatch) } := by
  simp only [assign, get_bind, assigned]
  rfl

end Assignment

/-! ## Why variables stop a computation -/

section Variables

variable {name : Text} {value operand : Value} {machine after : Machine} {reason : Stop}

theorem Exec.lookup_eq_ok (succeeds : lookup name machine = .ok value after) :
    machine.env.bindings.get? name = some value ∧ machine = after := by
  simp only [lookup, get_bind, Environment.lookup] at succeeds
  cases known : machine.env.bindings.get? name with
  | some bound =>
      rw [known] at succeeds
      cases succeeds
      exact ⟨rfl, rfl⟩
  | none =>
      rw [known] at succeeds
      cases succeeds

theorem Exec.lookup_eq_error (stops : lookup name machine = .error reason after) :
    reason = .failure (.undefined name) ∧ machine = after := by
  simp only [lookup, get_bind, Environment.lookup] at stops
  cases known : machine.env.bindings.get? name with
  | some value =>
      rw [known] at stops
      cases stops
  | none =>
      rw [known] at stops
      cases stops
      exact ⟨rfl, rfl⟩

theorem Exec.declare_eq_error (stops : declare name value machine = .error reason after) :
    reason = .failure (.redeclared name) ∧ machine = after := by
  simp only [declare, get_bind, Environment.declare] at stops
  cases known : machine.env.declares name with
  | false =>
      rw [known] at stops
      cases stops
  | true =>
      rw [known] at stops
      cases stops
      exact ⟨rfl, rfl⟩

theorem Exec.assign_eq_error (stops : assign name value machine = .error reason after) :
    (reason = .failure (.undeclared name) ∨
      ∃ old : Value, reason = .failure (.mismatch name old.ty value.ty)) ∧
      machine = after := by
  cases assigned : machine.env.assign name value with
  | error cause =>
      rw [assign_of_error assigned] at stops
      cases stops
      exact ⟨(Environment.assign_eq_error assigned).imp (congrArg _) fun ⟨old, same⟩ =>
        ⟨old, congrArg _ same⟩, rfl⟩
  | ok result =>
      obtain ⟨env, mismatch⟩ := result
      cases mismatch with
      | some mismatch =>
          rw [assign_of_mismatch assigned] at stops
          cases stops
      | none =>
          rw [assign_of_agreeing assigned] at stops
          cases stops

theorem Exec.combine_eq_error {assignment : Assignment}
    (stops : combine name operand assignment machine = .error reason after) :
    (reason = .failure (.undefined name) ∨ ∃ op current error, assignment = .combined op ∧
      machine.env.bindings.get? name = some current ∧ op.apply current operand = .error error ∧
      reason = .ofOperation error) ∧ machine = after := by
  cases assignment with
  | plain => cases stops
  | combined op =>
      obtain unknown | ⟨current, middle, known, operated⟩ := bind_eq_error.mp stops
      · obtain ⟨rfl, rfl⟩ := lookup_eq_error unknown
        exact ⟨.inl rfl, rfl⟩
      · obtain ⟨bound, rfl⟩ := lookup_eq_ok known
        obtain ⟨cursor, operated, rfl⟩ := scan_eq_error.mp operated
        cases applied : op.apply current operand with
        | ok value =>
            rw [applied] at operated
            cases operated
        | error error =>
            rw [applied] at operated
            cases operated
            exact ⟨.inr ⟨op, current, error, rfl, bound, applied, rfl⟩, rfl⟩

end Variables

/-! ## Events change the trace only -/

theorem Console.note_feed (console : Console) (event : Event) :
    (console.note event).feed = console.feed := by
  unfold note
  split <;> rfl

theorem Console.note_output (console : Console) (event : Event) :
    (console.note event).output = console.output := by
  unfold note
  split <;> rfl

theorem Console.note_groupLimit (console : Console) (event : Event) :
    (console.note event).groupLimit = console.groupLimit := by
  unfold note
  split <;> rfl

end ToonScript
