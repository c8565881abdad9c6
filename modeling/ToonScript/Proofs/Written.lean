import ToonScript.Proofs.Contract
import ToonScript.Proofs.Timeline

/-!
# What a run writes

A run writes by its print statements only. Such a statement evaluates an expression, passes a
closing bracket and writes the value, so in the history of a run every deed of writing comes
right behind the evaluation that gave its value (`Program.history_printed`). The lines that a
run adds to the output are the texts of these values, in order (`Program.run_output_eq`).
-/

set_option autoImplicit false

namespace ToonScript

/-- Whether a deed writes. -/
def Deed.isWrite : Deed → Bool
  | write _ => true
  | _ => false

/-- The value that is written at a moment. -/
def Moment.written? (moment : Moment) : Option Value :=
  match moment.deed with
  | .write value => some value
  | _ => none

/-! ## Moments of printing -/

/-- Moments at which nothing is written but the values of expressions, each of them right behind
its evaluation and a closing bracket. -/
inductive Printed : List Moment → Prop where
  | nil : Printed []
  | other {moment : Moment} {later : List Moment} (silent : moment.deed.isWrite = false)
      (rest : Printed later) : Printed (moment :: later)
  | print {asked closing written : Machine} {value : Value} {context : Text}
      {later : List Moment} (evaluated : Exec.evaluate asked = .ok value closing)
      (rest : Printed later) :
      Printed (⟨.evaluate, asked⟩ :: ⟨.expect .groupClose context, closing⟩ ::
        ⟨.write value, written⟩ :: later)

namespace Printed

theorem append {earlier later : List Moment} (first : Printed earlier)
    (second : Printed later) :
    Printed (earlier ++ later) := by
  induction first with
  | nil => exact second
  | other silent _ ih => exact .other silent ih
  | print evaluated _ ih => exact .print evaluated ih

/-- In front of a deed of writing stand the evaluation of its value and a closing bracket. -/
theorem split {moments earlier later : List Moment} {value : Value} {written : Machine}
    (printed : Printed moments)
    (parts : moments = earlier ++ ⟨.write value, written⟩ :: later) :
    ∃ before asked closing context,
      earlier = before ++ [⟨.evaluate, asked⟩, ⟨.expect .groupClose context, closing⟩] ∧
      Exec.evaluate asked = .ok value closing := by
  induction printed generalizing earlier with
  | nil => cases earlier <;> cases parts
  | other silent _ ih =>
      cases earlier with
      | nil =>
          cases parts
          cases silent
      | cons first earlier =>
          obtain ⟨-, partsLater⟩ := List.cons.inj parts
          obtain ⟨before, asked, closing, context, rfl, evaluated⟩ := ih partsLater
          exact ⟨first :: before, asked, closing, context, rfl, evaluated⟩
  | @print asked closing written' value' context later' evaluated _ ih =>
      match earlier with
      | [] | [_] => cases parts
      | [first, second] =>
          cases parts
          exact ⟨[], asked, closing, context, rfl, evaluated⟩
      | first :: second :: third :: earlier =>
          obtain ⟨-, parts⟩ := List.cons.inj parts
          obtain ⟨-, parts⟩ := List.cons.inj parts
          obtain ⟨-, parts⟩ := List.cons.inj parts
          obtain ⟨before, asked, closing, context, rfl, evaluated⟩ := ih parts
          exact ⟨first :: second :: third :: before, asked, closing, context, rfl, evaluated⟩

end Printed

/-! ## Plans that write only what they evaluated -/

namespace Plan

variable {α β : Type}

/-- A plan that writes only by printing, from whatever machine it is carried out. -/
def Prints (plan : Plan α) : Prop := ∀ machine, Printed (plan.history machine)

namespace Prints

theorem pure (result : α) : (pure result : Plan α).Prints := fun _ => .nil

theorem stop (reason : Stop) : (stop reason : Plan α).Prints := fun _ => .nil

theorem perform {deed : Deed} (silent : deed.isWrite = false) : (perform deed).Prints := by
  intro machine
  rw [history_perform]
  exact .other silent .nil

theorem bind {plan : Plan α} {next : α → Plan β} (prints : plan.Prints)
    (printsNext : ∀ a, (next a).Prints) : (plan >>= next).Prints := by
  intro machine
  cases carried : plan.run machine with
  | ok result after =>
      rw [history_bind_of_ok carried]
      exact (prints machine).append (printsNext result after)
  | error reason after =>
      rw [history_bind_of_error carried]
      exact prints machine

theorem step {deed : Deed} {next : deed.Result → Plan β} (silent : deed.isWrite = false)
    (printsNext : ∀ result, (next result).Prints) : (Plan.perform deed >>= next).Prints :=
  (perform silent).bind printsNext

theorem printStatement : printStatement.Prints := by
  refine step rfl fun _ => step rfl fun _ machine => ?_
  -- The rest is looked at as a whole, because the written value is that of the evaluation
  -- before it.
  cases evaluated : Deed.evaluate.perform machine with
  | error reason after =>
      rw [history_step_of_error evaluated]
      exact .other rfl .nil
  | ok value closing =>
      rw [history_step_of_ok evaluated]
      cases closed : (Deed.expect .groupClose "after print expression").perform closing with
      | error reason after =>
          rw [history_step_of_error closed]
          exact .other rfl (.other rfl .nil)
      | ok result after =>
          rw [history_step_of_ok closed, history_perform]
          exact .print evaluated .nil

theorem declarationStatement : declarationStatement.Prints :=
  step rfl fun _ => step rfl fun _ => step rfl fun _ => step rfl fun _ =>
    step rfl fun _ => perform rfl

theorem assignTo (name : Text) (assignment : Exec.Assignment) :
    (assignTo name assignment).Prints :=
  step rfl fun _ => step rfl fun _ => step rfl fun _ => perform rfl

theorem assignmentStatement (name : Text) (assignment : Exec.Assignment) :
    (assignmentStatement name assignment).Prints := by
  refine step rfl fun current => ?_
  split
  · exact step rfl fun _ => step rfl fun _ => assignTo name assignment
  · exact stop _

theorem identifierStatement : identifierStatement.Prints := by
  refine step rfl fun target => step rfl fun sign => ?_
  split
  · exact assignmentStatement _ _
  · exact step rfl fun _ => pure _

theorem inputStatement : inputStatement.Prints := by
  refine step rfl fun _ => step rfl fun _ => step rfl fun name => step rfl fun _ =>
    step rfl fun current => ?_
  cases current with
  | none => exact stop _
  | some current =>
      refine step rfl fun line => ?_
      split
      · exact stop _
      · exact step rfl fun _ => perform rfl

theorem returnStatement : returnStatement.Prints :=
  step rfl fun _ => step rfl fun _ => step rfl fun _ => perform rfl

theorem breakStatement : breakStatement.Prints :=
  step rfl fun _ => step rfl fun _ => perform rfl

theorem continueStatement : continueStatement.Prints :=
  step rfl fun _ => step rfl fun _ => perform rfl

section Blocks

variable {block : Plan Unit} (prints : block.Prints)

include prints

theorem branch (taken : Bool) : (branch block taken).Prints := by
  cases taken with
  | true => exact step rfl fun _ => prints
  | false => exact perform rfl

theorem elseBranch (taken : Bool) : (elseBranch block taken).Prints := by
  refine step rfl fun next => ?_
  split
  · exact step rfl fun _ => step rfl fun _ => branch prints taken
  · exact pure _

theorem branches (condition : Value) : (branches block condition).Prints := by
  cases condition with
  | boolean holds =>
      exact step rfl fun _ => step rfl fun _ => (branch prints holds).bind fun _ =>
        (elseBranch prints (!holds)).bind fun _ => perform rfl
  | _ => exact stop _

theorem conditionalStatement : (conditionalStatement block).Prints :=
  step rfl fun _ => step rfl fun _ => step rfl fun condition => step rfl fun _ =>
    branches prints condition

omit prints

variable {turns : Cursor → Cursor → Plan Nat}
  (printsTurns : ∀ condition body, (turns condition body).Prints)

include printsTurns

theorem loopStatement : (loopStatement turns).Prints := by
  refine step rfl fun _ => step rfl fun _ => step rfl fun condition => step rfl fun _ =>
    step rfl fun _ => ?_
  refine step rfl fun _ => step rfl fun body => step rfl fun _ =>
    (printsTurns condition body).bind fun _ => ?_
  exact step rfl fun _ => step rfl fun _ => step rfl fun _ => perform rfl

include prints

theorem statementBody : (statementBody block turns).Prints := by
  refine step rfl fun next => ?_
  split
  · exact printStatement
  · exact declarationStatement
  · exact identifierStatement
  · exact conditionalStatement prints
  · exact loopStatement printsTurns
  · exact inputStatement
  · exact returnStatement
  · exact breakStatement
  · exact continueStatement
  · exact stop _

end Blocks

mutual

theorem statement (steps : Nat) : (statement steps).Prints := by
  cases steps with
  | zero =>
      rw [Plan.statement]
      exact stop _
  | succ steps =>
      rw [Plan.statement]
      exact step rfl fun _ => step rfl fun _ =>
        (statementBody (block steps) fun condition body => turns steps condition body 0).bind
          fun _ => perform rfl

theorem block (steps : Nat) : (block steps).Prints := by
  cases steps with
  | zero =>
      rw [Plan.block]
      exact stop _
  | succ steps =>
      rw [Plan.block]
      refine step rfl fun next => ?_
      cases next with
      | none => exact stop _
      | some token =>
          dsimp only
          split
          · exact perform rfl
          · refine step rfl fun flags => ?_
            split
            · exact perform rfl
            · exact (statement steps).bind fun _ => block steps

theorem turns (steps : Nat) (condition body : Cursor) (count : Nat) :
    (turns steps condition body count).Prints := by
  cases steps with
  | zero =>
      rw [Plan.turns]
      exact stop _
  | succ steps =>
      rw [Plan.turns]
      refine step rfl fun _ => step rfl fun _ => step rfl fun value => step rfl fun _ => ?_
      split
      · refine step rfl fun _ => step rfl fun _ => (block steps).bind fun _ =>
          step rfl fun flags => ?_
        split
        · exact pure _
        · exact turns steps condition body (count + 1)
      · exact pure _
      · exact step rfl fun _ => pure _

end

theorem statements (steps : Nat) : (statements steps).Prints := by
  induction steps with
  | zero => exact stop _
  | succ steps ih =>
      refine step rfl fun next => step rfl fun flags => ?_
      split
      · exact pure _
      · exact (statement steps).bind fun _ => ih

end Prints

end Plan

/-! ## Runs -/

/-- Only a deed of writing adds to the output, and it adds the text of its value. -/
theorem Moment.next_output (moment : Moment) :
    moment.next.console.output.toList =
      moment.machine.console.output.toList ++ (moment.written?.map Value.text).toList := by
  have effect := moment.effect
  generalize moment.next = after at effect ⊢
  obtain ⟨deed, machine⟩ := moment
  cases effect with
  | wrote => exact Array.toList_push
  | mismatched | noted =>
      have same := Console.note_output machine.console
      simp only [same]
      exact (List.append_nil _).symm
  | moved isMove =>
      have silent : (Moment.mk deed machine).written? = none := by
        cases deed with
        | write => cases isMove
        | _ => rfl
      rw [silent]
      exact (List.append_nil _).symm
  | _ => exact (List.append_nil _).symm

namespace Program

variable (steps : Nat) (strict : Bool) (tokens : List Token) (console : Console)

theorem history_printed : Printed (history steps strict tokens console) :=
  Plan.Prints.statements steps _

/-- The lines that a run adds to the output are the texts of the values that it writes, in
order. -/
theorem run_output_eq :
    (run steps strict tokens console).2.output.toList = console.output.toList ++
      ((history steps strict tokens console).filterMap Moment.written?).map Value.text := by
  have announced : (initial strict tokens console).console.output = console.output :=
    announce_keeps (fun after => after.output = console.output)
      (fun event same => (Console.note_output _ event).trans same) tokens rfl
  rw [run_output, List.map_filterMap, ← announced]
  exact Plan.final_ledger (fun machine => machine.console.output.toList)
    (fun moment => moment.written?.map Value.text) _ _ fun moment _ => moment.next_output

end Program

end ToonScript
