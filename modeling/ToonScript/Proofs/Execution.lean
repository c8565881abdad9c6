import ToonScript.Machine.Program
import ToonScript.Proofs.Simulation

/-!
# Executions of whole programs

A run is the execution of statements with a budget, followed by a conclusion: what the machine
has come to is turned into an ending. `Program.Executes` relates a program, started with
whatever variables and on whatever console, to the ending and the console that it comes to with
a budget that is enough. More budget changes nothing (`conclude_of_le`), so there is one ending
at most (`Executes.unique`).
-/

set_option autoImplicit false

namespace ToonScript

deriving instance DecidableEq for Report, Ending

/-- The machine before a program that starts with variables. -/
def Machine.enter (tokens : List Token) (env : Environment) (console : Console) : Machine :=
  { cursor := .start tokens, env, console }

theorem Machine.enter_orderly (tokens : List Token) (env : Environment) (console : Console) :
    (enter tokens env console).Orderly := fun _ => rfl

/-- Whether no further statement is executed: the tokens are at their end, or an interruption
has happened. -/
def Machine.finished (machine : Machine) : Bool :=
  machine.cursor.rest.isEmpty || machine.flags.interrupted

namespace Exec

theorem statements_of_finished {machine : Machine} (finished : machine.finished = true)
    (steps : Nat) : statements (steps + 1) machine = .ok () machine := by
  rw [Machine.finished] at finished
  simp only [statements, get_bind, finished, ↓reduceIte]
  rfl

theorem statements_of_unfinished {machine : Machine} (unfinished : machine.finished = false)
    (steps : Nat) :
    statements (steps + 1) machine =
      (statement steps >>= fun _ => statements steps) machine := by
  rw [Machine.finished] at unfinished
  simp only [statements, get_bind, unfinished, Bool.false_eq_true, ↓reduceIte]

end Exec

namespace Program

/-- The ending of a run and the console after it, from the result of its statements. -/
def conclude : EStateM.Result Stop Machine Unit → Ending × Console
  | .ok () machine => (.reported (report machine none), machine.console.note .finished)
  | .error (.failure cause) machine =>
    (.reported (report machine (some cause)), machine.console.note (.failed cause))
  | .error .undefinedRemainder machine => (.undefinedRemainder, machine.console)
  | .error .outOfSteps machine => (.outOfSteps, machine.console)

/-- Two consoles that every event leaves related are left related by the announcement of a
program. -/
theorem announce_relates (related : Console → Console → Prop)
    (note : ∀ {console console' : Console} (event : Event),
      related console console' → related (console.note event) (console'.note event))
    (tokens : List Token) {console console' : Console} (start : related console console') :
    related (announce tokens console) (announce tokens console') := by
  have tokenwise : ∀ {started started' : Console}, related started started' →
      related (tokens.foldl (fun console token => console.note (.token token)) started)
        (tokens.foldl (fun console token => console.note (.token token)) started') := by
    induction tokens with
    | nil => exact id
    | cons token tokens ih => exact fun start => ih (note (.token token) start)
  exact tokenwise (note _ start)

/-- What every event leaves true of a console is left true by the announcement of a program. -/
theorem announce_keeps (kept : Console → Prop)
    (note : ∀ {console : Console} (event : Event), kept console → kept (console.note event))
    (tokens : List Token) {console : Console} (start : kept console) :
    kept (announce tokens console) :=
  @announce_relates (fun console _ => kept console) note tokens console console start

/-- A run announces its tokens, executes its statements and concludes. -/
theorem run_eq (steps : Nat) (strict : Bool) (tokens : List Token) (console : Console) :
    run steps strict tokens console =
      conclude (Exec.statements steps
        (.enter tokens { strict } (announce tokens console))) := by
  unfold run
  rw [show Machine.start tokens strict (announce tokens console) =
    .enter tokens { strict } (announce tokens console) from rfl]
  split
  all_goals
    next result =>
      rw [result]
      rfl

/-- A program, started with variables and on a console, comes to an ending and leaves a console.
-/
def Executes (tokens : List Token) (env : Environment) (console : Console) (ending : Ending)
    (after : Console) : Prop :=
  ∃ steps, conclude (Exec.statements steps (.enter tokens env console)) = (ending, after) ∧
    ending ≠ .outOfSteps

/-- The conclusions of results that agree. -/
theorem conclude_of_agrees {like : Likeness}
    (strictly : ∀ stop, like.forgives stop → stop = .outOfSteps)
    {result result' : EStateM.Result Stop Machine Unit}
    (agrees : like.Agrees False result result') (ends : (conclude result).1 ≠ .outOfSteps) :
    (conclude result').1 = (conclude result).1 ∧
      like.talk (conclude result).2 (conclude result').2 := by
  cases agrees with
  | ok alike =>
      obtain ⟨-, talk, -⟩ := alike
      exact ⟨rfl, like.talk_note _ talk⟩
  | @error stop after after' env talk =>
      cases stop with
      | failure cause =>
          refine ⟨?_, like.talk_note _ talk⟩
          simp only [conclude, report, env, Option.isSome_some, ↓reduceIte]
      | undefinedRemainder => exact ⟨rfl, talk⟩
      | outOfSteps => exact absurd rfl ends
  | forgiven forgives =>
      obtain rfl := strictly _ forgives
      exact absurd rfl ends
  | spent impossible => exact impossible.elim

/-- A budget that is enough may be enlarged. -/
theorem conclude_of_le {machine : Machine} (orderly : machine.Orderly) {steps steps' : Nat}
    (enough : steps ≤ steps')
    (ends : (conclude (Exec.statements steps machine)).1 ≠ .outOfSteps) :
    conclude (Exec.statements steps' machine) = conclude (Exec.statements steps machine) := by
  have agrees :=
    Likeness.budget.statements_simulates id enough machine machine (.intro rfl rfl orderly)
  obtain ⟨sameEnding, sameConsole⟩ := conclude_of_agrees (fun _ => id) agrees ends
  exact Prod.ext sameEnding sameConsole.symm

theorem Executes.unique {tokens : List Token} {env : Environment}
    {console after after' : Console} {ending ending' : Ending}
    (executes : Executes tokens env console ending after)
    (executes' : Executes tokens env console ending' after') :
    ending = ending' ∧ after = after' := by
  obtain ⟨steps, concluded, ends⟩ := executes
  obtain ⟨steps', concluded', ends'⟩ := executes'
  have orderly := Machine.enter_orderly tokens env console
  have larger :=
    conclude_of_le orderly (Nat.le_max_left steps steps') (by rw [concluded]; exact ends)
  have larger' :=
    conclude_of_le orderly (Nat.le_max_right steps steps') (by rw [concluded']; exact ends')
  rw [concluded] at larger
  rw [concluded', larger] at larger'
  exact Prod.mk.inj larger'

end Program

end ToonScript
