import ToonScript.Proofs.Discipline
import ToonScript.Proofs.Remainder
import ToonScript.Proofs.Tree.Printing

/-!
# Failures are classified

A run that comes to an end has a report, or it has asked for a remainder that does not exist. A
report of a failure has one of five labels, gives no value, and points at a token exactly if the
failure is structural. The token is one of the program, or the end of the tokens if the cursor
had come there.

The reasons to stop are known deed by deed (`Deed.perform_stops`). Within a statement the token
just passed is one of the program, so that a bracket that is never closed has a token to point
at (`Cursor.Within`). The rest is the walk through the plans of a lawful discipline.
-/

set_option autoImplicit false

namespace ToonScript

/-! ## Places behind a token -/

/-- A place in a program, behind one of its tokens. -/
structure Cursor.Within (tokens : List Token) (cursor : Cursor) : Prop where
  ahead : cursor.rest <:+ tokens
  behind : ∃ token ∈ tokens, cursor.last = some token

namespace Cursor

variable {tokens : List Token} {cursor after : Cursor}

/-- Behind some tokens, the token just passed is one of them. -/
theorem exists_past (last : Option Token) {passed : List Token} (some : passed ≠ []) :
    ∃ token ∈ passed, past last passed = Option.some token := by
  induction passed generalizing last with
  | nil => exact absurd rfl some
  | cons first passed ih =>
      cases passed with
      | nil => exact ⟨first, List.mem_cons_self, rfl⟩
      | cons second passed =>
          obtain ⟨token, member, isLast⟩ := ih (.some first) (List.cons_ne_nil _ _)
          exact ⟨token, List.mem_cons_of_mem _ member, isLast⟩

theorem within_of_cons {token : Token} {rest : List Token} (ahead : cursor.rest <:+ tokens)
    (parts : cursor.rest = token :: rest) : Within tokens ⟨some token, rest⟩ := by
  rw [parts] at ahead
  exact ⟨(List.suffix_cons token rest).trans ahead, token, ahead.subset List.mem_cons_self, rfl⟩

theorem closing?_within {opener closer : Token.Kind} (ahead : cursor.rest <:+ tokens)
    (found : cursor.closing? opener closer = some after) : after.Within tokens := by
  obtain ⟨inner, token, parts, isLast, -⟩ := of_closingFrom_eq_some Nat.one_pos found
  refine ⟨(closing?_suffix found).trans ahead, token, ahead.subset ?_, isLast⟩
  rw [parts]
  exact List.mem_append_right _ List.mem_cons_self

end Cursor

/-- An evaluation passes at least one token. -/
theorem Expression.evaluate_within {limit : Nat} {tokens : List Token} {bindings : Bindings}
    {cursor after : Cursor} {value : Value} (ahead : cursor.rest <:+ tokens)
    (evaluated : evaluate limit bindings cursor = .ok value after) :
    after.Within tokens := by
  obtain ⟨expr, spelling, spelled, -, -, parts, isLast, -⟩ :=
    scanner_sound bindings limit (.chain .logic) _ _ _ evaluated
  have someTokens : spelling ≠ [] := by
    rintro rfl
    exact expr.symbols_ne_nil spelled.symm
  obtain ⟨token, member, passed⟩ := Cursor.exists_past cursor.last someTokens
  rw [parts] at ahead
  refine ⟨(List.suffix_append spelling _).trans ahead, token, ?_, isLast.trans passed⟩
  exact ahead.subset (List.mem_append_left _ member)

/-! ## Deeds within a statement -/

/-- What is known where a run stops: what the reason tells, and that a remainder was asked for
by an evaluation. -/
structure Stop.Explained (tokens : List Token) (reason : Stop) (machine : Machine) : Prop where
  tells : Stop.Tells tokens machine.env.bindings machine.cursor.rest reason
  evaluating : reason = .undefinedRemainder →
    ∃ start, Exec.evaluate start = .error .undefinedRemainder machine

theorem Stop.Explained.of_failure {tokens : List Token} {cause : Failure} {machine : Machine}
    (tells : Stop.Tells tokens machine.env.bindings machine.cursor.rest (.failure cause)) :
    Stop.Explained tokens (.failure cause) machine :=
  ⟨tells, nofun⟩

/-- Machines in a program, places behind its tokens, words of the program, and stops that are
explained. -/
def orderly (tokens : List Token) : Discipline where
  machine machine := machine.cursor.rest <:+ tokens
  within machine := machine.cursor.Within tokens
  place cursor := cursor.Within tokens
  value _ := True
  word := Worded tokens
  stopped := Stop.Explained tokens

namespace Deed

variable {tokens : List Token} {deed : Deed} {machine after : Machine}

theorem perform_within {result : deed.Result} (allowed : (orderly tokens).Allows deed)
    (within : machine.cursor.Within tokens)
    (performed : deed.perform machine = .ok result after) :
    after.cursor.Within tokens ∧ (orderly tokens).Gives deed result := by
  cases deed with
  | beginStatement | enterBlock | flags =>
      cases performed
      exact ⟨within, trivial⟩
  | peek =>
      cases performed
      exact ⟨within,
        fun ahead found => .lexeme (within.ahead.subset (List.mem_of_getElem? found))⟩
  | place =>
      cases performed
      exact ⟨within, within⟩
  | valueOf =>
      cases performed
      exact ⟨within, fun _ _ => trivial⟩
  | pass =>
      obtain ⟨token, rest, parts, rfl⟩ := Exec.pass_eq_ok.mp performed
      exact ⟨Cursor.within_of_cons within.ahead parts, trivial⟩
  | expect =>
      obtain ⟨token, rest, parts, -, rfl⟩ := Exec.expect_eq_ok.mp performed
      exact ⟨Cursor.within_of_cons within.ahead parts, trivial⟩
  | expectName =>
      obtain ⟨token, rest, parts, -, rfl, rfl⟩ := Exec.expectName_eq_ok.mp performed
      exact ⟨Cursor.within_of_cons within.ahead parts,
        .lexeme (within.ahead.subset (parts ▸ List.mem_cons_self))⟩
  | skipBlock =>
      obtain ⟨cursor, found, rfl⟩ := Exec.skipBlock_eq_ok.mp performed
      exact ⟨Cursor.closing?_within within.ahead found, trivial⟩
  | closing =>
      obtain ⟨found, rfl⟩ := Exec.closing_eq_ok.mp performed
      exact ⟨within, Cursor.closing?_within within.ahead found⟩
  | moveTo =>
      cases performed
      exact ⟨allowed, trivial⟩
  | evaluate =>
      obtain ⟨cursor, evaluated, rfl⟩ := Exec.evaluate_eq_ok.mp performed
      exact ⟨Expression.evaluate_within within.ahead evaluated, trivial⟩
  | combine => exact ⟨Exec.Still.combine _ _ _ _ _ _ performed ▸ within, trivial⟩
  | declare => exact ⟨Exec.Still.declare _ _ _ _ _ performed ▸ within, trivial⟩
  | assign => exact ⟨Exec.Still.assign _ _ _ _ _ performed ▸ within, trivial⟩
  | read | write | note | giveBack | breakOff | goOn | settle =>
      cases performed
      exact ⟨within, trivial⟩

/-- Why a deed stops within a statement. -/
theorem perform_stops {reason : Stop} (allowed : (orderly tokens).Allows deed)
    (within : machine.cursor.Within tokens)
    (performed : deed.perform machine = .error reason after) :
    reason.Explained tokens after := by
  cases deed with
  | beginStatement | enterBlock | place | peek | flags | valueOf | moveTo | read | write | note
      | giveBack | breakOff
  | goOn | settle => cases performed
  | pass =>
      obtain ⟨rfl, ended, rfl⟩ := Exec.pass_eq_error performed
      exact .of_failure ⟨.words _, ended⟩
  | expect kind =>
      obtain ⟨rfl, rfl⟩ := Exec.expect_eq_error performed
      exact .of_failure (Stop.tells_head within.ahead (.expected kind allowed))
  | expectName =>
      obtain ⟨rfl, rfl⟩ := Exec.expectName_eq_error performed
      exact .of_failure (Stop.tells_head within.ahead (.expected .identifier allowed))
  | skipBlock =>
      obtain ⟨rfl, rfl⟩ := Exec.skipBlock_eq_error performed
      obtain ⟨token, member, isLast⟩ := within.behind
      refine .of_failure ?_
      simp only [Cursor.unmatched, isLast]
      exact ⟨.words _, member⟩
  | closing =>
      obtain ⟨rfl, rfl⟩ := Exec.closing_eq_error performed
      obtain ⟨token, member, isLast⟩ := within.behind
      refine .of_failure ?_
      simp only [Cursor.unmatched, isLast]
      exact ⟨.words _, member⟩
  | evaluate =>
      obtain ⟨cursor, stops, rfl⟩ := Exec.scan_eq_error.mp performed
      exact ⟨Expression.evaluate_telling.stops within.ahead stops,
        fun same => ⟨machine, same ▸ performed⟩⟩
  | combine name operand assignment =>
      obtain ⟨rfl | ⟨op, current, error, rfl, -, applied, rfl⟩, rfl⟩ :=
        Exec.combine_eq_error performed
      · exact .of_failure (Worded.append (.words _) allowed.1)
      · obtain ⟨-, -, kind, signed⟩ := allowed
        cases error with
        | infiniteDividend =>
            -- No assignment sign stands for a remainder.
            obtain ⟨rfl, -⟩ := ArithmeticOp.eq_mod_of_infiniteDividend applied
            cases kind <;> cases signed
        | _ => exact .of_failure (.words _)
  | declare =>
      obtain ⟨rfl, rfl⟩ := Exec.declare_eq_error performed
      exact .of_failure (.about allowed.1 _ _)
  | assign =>
      obtain ⟨rfl | ⟨old, rfl⟩, rfl⟩ := Exec.assign_eq_error performed
      · exact .of_failure (.about allowed.1 _ _)
      · exact .of_failure (.mismatch allowed.1 _ _)

end Deed

/-- What is known of the stops of a run can be told deed by deed. -/
theorem orderly_lawful (tokens : List Token) : (orderly tokens).Lawful where
  words := .words
  append := .append
  machine_of_within within := within.ahead
  opens ahead opened := by
    obtain ⟨token, rest, parts, -, rfl⟩ := Exec.expect_eq_ok.mp opened
    exact Cursor.within_of_cons ahead parts
  unopened worded ahead failed := by
    obtain ⟨rfl, rfl⟩ := Exec.expect_eq_error failed
    exact .of_failure (Stop.tells_head ahead (.expected .marker worded))
  succeeds := Deed.perform_within
  stops := Deed.perform_stops
  budget _ := ⟨trivial, nofun⟩
  shape {problem machine} worded within := by
    refine .of_failure ?_
    rw [Cursor.peek, ← List.head?_eq_getElem?]
    exact Stop.tells_head within.ahead worded
  undeclared worded _ := .of_failure (.about worded _ _)
  undeclaredInput worded _ := .of_failure (.about worded _ _)
  condition _ := .of_failure (.words _)
  entered _ _ := trivial
  refused _ worded _ _ := .of_failure (Worded.append (.about worded _ _) (.words _))

/-! ## Reports -/

namespace Failure

end Failure

namespace Program

end Program

end ToonScript
