import ToonScript.Proofs.Balance
import ToonScript.Proofs.Execution

/-!
# Programs that are put behind each other

When a program comes to its end without an interruption, another program may be put behind it:
the whole executes as the second program does when it starts with the variables, the warnings
and the input that the first has left, with the lines of the first in front. When the first
program ends with a return, a break or a continue, whatever stands behind it is not looked at
(`executes_append`).

The first program never looks behind its end. This is the likeness `Likeness.extension`, under
which all tokens ahead may be followed by more: every statement ends with a marker, so an
expression, a scan for a closer or the question for another branch that succeeded has met a
token of its own program at its end.
-/

set_option autoImplicit false

namespace ToonScript

/-! ## More tokens behind a program -/

/-- The second program is the first one with more tokens behind it. Only what the first run does
successfully says something about the second. -/
def Likeness.extension (more : List Token) : Likeness where
  toEcho := .same
  place cursor cursor' := cursor' = ⟨cursor.last, cursor.rest ++ more⟩
  forgives _ := True
  openEnd := True
  forgives_outOfSteps := trivial
  forgives_of_openEnd _ _ := trivial
  place_nil _ closed := absurd trivial closed
  place_cons := by
    rintro last token rest _ rfl
    exact ⟨rest ++ more, rfl, rfl⟩
  evaluate_ok := by
    rintro limit bindings value cursor _ after rfl evaluated
    by_cases atEnd : after.rest = []
    · exact .inl ⟨trivial, atEnd⟩
    · exact .inr ⟨_, Expression.evaluate_append more evaluated atEnd, rfl⟩
  evaluate_error _ _ := .inl trivial
  closing_some := by
    rintro opener closer cursor _ after rfl found
    exact ⟨_, Cursor.closingFrom_append_of_some more found, rfl⟩
  closing_none _ _ := .inl trivial

/-- A machine with more tokens behind its program. -/
def Machine.extend (machine : Machine) (more : List Token) : Machine :=
  { machine with cursor := ⟨machine.cursor.last, machine.cursor.rest ++ more⟩ }

theorem Likeness.alike_extension_iff {more : List Token} {machine machine' : Machine} :
    (extension more).Alike machine machine' ↔ machine' = machine.extend more ∧
      machine.Orderly := by
  constructor
  · rintro @⟨cursor', console', place, talk, orderly⟩
    obtain rfl : cursor' = _ := place
    obtain rfl : machine.console = console' := talk
    exact ⟨rfl, orderly⟩
  · rintro ⟨rfl, orderly⟩
    exact .intro rfl rfl orderly

namespace Exec

/-- A statement that is executed is executed in the same way with more tokens behind it. -/
theorem statement_extend {steps steps' : Nat} {machine after : Machine} (more : List Token)
    (enough : steps ≤ steps') (orderly : machine.Orderly)
    (executed : statement steps machine = .ok () after) :
    statement steps' (machine.extend more) = .ok () (after.extend more) ∧ after.Orderly := by
  have agrees := (Likeness.extension more).statement_simulates enough machine _
    (Likeness.alike_extension_iff.mpr ⟨rfl, orderly⟩)
  rw [executed] at agrees
  generalize executed' : statement steps' (machine.extend more) = result at agrees
  cases agrees with
  | ok alike =>
      obtain ⟨rfl, orderlyAfter⟩ := Likeness.alike_extension_iff.mp alike
      exact ⟨rfl, orderlyAfter⟩
  | spent impossible => exact impossible.elim

/-- A program that comes to its end does so with more tokens behind it, and has a part of its
budget left. -/
theorem statements_extend {steps : Nat} {machine after : Machine} (more : List Token)
    (orderly : machine.Orderly) (executed : statements steps machine = .ok () after) :
    after.Orderly ∧ after.finished = true ∧
      ∃ left, ∀ extra, statements (steps + extra) (machine.extend more) =
        statements (left + 1 + extra) (after.extend more) := by
  induction steps generalizing machine with
  | zero => cases executed
  | succ steps ih =>
      cases ended : machine.finished with
      | true =>
          rw [statements_of_finished ended] at executed
          cases executed
          exact ⟨orderly, ended, steps, fun extra => rfl⟩
      | false =>
          rw [statements_of_unfinished ended] at executed
          obtain ⟨_, middle, first, rest⟩ := bind_eq_ok.mp executed
          obtain ⟨-, orderlyMiddle⟩ := statement_extend more (Nat.le_refl steps) orderly first
          obtain ⟨orderlyAfter, finished, left, same⟩ := ih orderlyMiddle rest
          refine ⟨orderlyAfter, finished, left, fun extra => ?_⟩
          obtain ⟨first', -⟩ :=
            statement_extend more (Nat.le_add_right steps extra) orderly first
          have goesOn : (machine.extend more).finished = false := by
            simp only [Machine.finished, Bool.or_eq_false_iff,
              List.isEmpty_eq_false_iff] at ended ⊢
            exact ⟨by simp [Machine.extend, ended.1], ended.2⟩
          rw [Nat.add_right_comm, statements_of_unfinished goesOn,
            bind_of_ok first', same extra]

end Exec

/-! ## The token before a program -/

/-- A machine with another token just passed. -/
def Machine.behind (machine : Machine) (last : Option Token) : Machine :=
  { machine with cursor := ⟨last, machine.cursor.rest⟩ }

/-- A program that is at its end without an interruption leaves the machine as another program
finds it. -/
theorem Machine.Orderly.extend_eq {machine : Machine} (orderly : machine.Orderly)
    (finished : machine.finished = true) (uninterrupted : machine.flags.interrupted = false)
    (more : List Token) :
    machine.extend more = (Machine.enter more machine.env machine.console).behind
      machine.cursor.last := by
  obtain ⟨⟨last, rest⟩, env, ⟨returned, broke, continued⟩, returnValue, console⟩ := machine
  simp only [Flags.interrupted, Bool.or_eq_false_iff] at uninterrupted
  obtain ⟨⟨rfl, rfl⟩, rfl⟩ := uninterrupted
  obtain rfl : returnValue = none := orderly rfl
  simp only [Machine.finished, Flags.interrupted, Bool.or_false, List.isEmpty_iff] at finished
  obtain rfl : rest = [] := finished
  rfl

/-- A statement starts with a marker. So it does not see the token before it, unless it stops at
once. -/
theorem Exec.statement_behind (steps : Nat) (machine : Machine) (last : Option Token) :
    statement steps (machine.behind last) = statement steps machine ∨
      ∃ stop, statement steps (machine.behind last) = .error stop (machine.behind last) ∧
        statement steps machine = .error stop machine := by
  cases steps with
  | zero => exact .inr ⟨.outOfSteps, rfl, rfl⟩
  | succ steps =>
      simp only [statement]
      obtain ⟨⟨last', rest⟩, env, flags, returnValue, console⟩ := machine
      cases rest with
      | nil => exact .inr ⟨_, rfl, rfl⟩
      | cons token rest =>
          by_cases marker : token.kind = .marker
          · have begun (before : Option Token) : expect .marker "at start of statement"
                ⟨⟨before, token :: rest⟩, env, flags, returnValue, console⟩ =
                  .ok () ⟨⟨some token, rest⟩, env, flags, returnValue, console⟩ :=
              expect_of_kind rfl marker _
            exact .inl (bind_congr_of_eq ((begun last).trans (begun last').symm))
          · exact .inr ⟨_, bind_of_error (expect_of_ne rfl marker _),
              bind_of_error (expect_of_ne rfl marker _)⟩

/-- A program does not see the token before it. -/
theorem Program.conclude_behind (steps : Nat) (machine : Machine) (last : Option Token) :
    conclude (Exec.statements steps (machine.behind last)) =
      conclude (Exec.statements steps machine) := by
  cases steps with
  | zero => rfl
  | succ steps =>
      have sameEnd : (machine.behind last).finished = machine.finished := rfl
      cases ended : machine.finished with
      | true =>
          rw [ended] at sameEnd
          rw [Exec.statements_of_finished ended, Exec.statements_of_finished sameEnd]
          rfl
      | false =>
          rw [ended] at sameEnd
          rw [Exec.statements_of_unfinished ended, Exec.statements_of_unfinished sameEnd]
          obtain same | ⟨stop, stopped, stopped'⟩ := Exec.statement_behind steps machine last
          · rw [bind_congr_of_eq same]
          · rw [bind_of_error stopped, bind_of_error stopped']
            cases stop <;> rfl

/-! ## The lines and events before a program -/

namespace Console

/-- A console behind another one: the lines and the events of the other come first. -/
def following (earlier later : Console) : Console :=
  { later with output := earlier.output ++ later.output, trace := earlier.trace ++ later.trace }

/-- The console without its lines and events: what is left to be read. -/
def fresh (console : Console) : Console := { console with output := #[], trace := #[] }

theorem following_fresh (console : Console) : console.following console.fresh = console := by
  simp only [following, fresh, Array.append_empty]

theorem following_note (earlier console : Console) (event : Event) :
    (earlier.following console).note event = earlier.following (console.note event) := by
  by_cases kept : event.level ≤ console.verbosity
  · simp only [note, following, kept, ↓reduceIte, Array.append_push]
  · simp only [note, following, kept, ↓reduceIte]

theorem following_write (earlier console : Console) (line : Text) :
    (earlier.following console).write line = earlier.following (console.write line) := by
  simp only [write, following, Array.append_push]

end Console

/-- The second console has an earlier one in front. -/
def Echo.following (earlier : Console) : Echo where
  talk console console' := console' = earlier.following console
  talk_limit same := by rw [same]; rfl
  talk_note event same := by rw [same, Console.following_note]
  talk_write line same := by rw [same, Console.following_write]
  talk_read same := by rw [same]; exact ⟨rfl, rfl⟩

namespace Program

/-- What stands on the console before a program stays in front, and changes nothing else. -/
theorem executes_following {tokens : List Token} {env : Environment}
    {earlier console after : Console} {ending : Ending} :
    Executes tokens env (earlier.following console) ending after ↔
      ∃ own, Executes tokens env console ending own ∧ after = earlier.following own := by
  have orderly := Machine.enter_orderly tokens env
  constructor
  · rintro ⟨steps, concluded, ends⟩
    have agrees :=
      (Likeness.samePlace (Echo.following earlier).flip).statements_simulates id
        (Nat.le_refl steps)
        (.enter tokens env (earlier.following console)) (.enter tokens env console)
        (.intro rfl rfl (orderly _))
    obtain ⟨sameEnding, sameConsole⟩ :=
      conclude_of_agrees (fun _ => id) agrees (by rw [concluded]; exact ends)
    rw [concluded] at sameEnding sameConsole
    refine ⟨(conclude (Exec.statements steps (.enter tokens env console))).2,
      ⟨steps, ?_, ends⟩, sameConsole⟩
    exact Prod.ext sameEnding rfl
  · rintro ⟨own, ⟨steps, concluded, ends⟩, rfl⟩
    have agrees :=
      (Likeness.samePlace (.following earlier)).statements_simulates id (Nat.le_refl steps)
        (.enter tokens env console) (.enter tokens env (earlier.following console))
        (.intro rfl rfl (orderly _))
    obtain ⟨sameEnding, sameConsole⟩ :=
      conclude_of_agrees (fun _ => id) agrees (by rw [concluded]; exact ends)
    rw [concluded] at sameEnding sameConsole
    exact ⟨steps, Prod.ext sameEnding sameConsole, ends⟩

/-- Two programs that conclude alike from some budgets on have the same endings. -/
theorem Executes.of_conclude {tokens tokens' : List Token} {env env' : Environment}
    {console console' after : Console} {ending : Ending} (budget budget' : Nat)
    (same : ∀ extra, conclude (Exec.statements (budget + extra) (.enter tokens env console)) =
      conclude (Exec.statements (budget' + extra) (.enter tokens' env' console')))
    (executes : Executes tokens env console ending after) :
    Executes tokens' env' console' ending after := by
  obtain ⟨steps, concluded, ends⟩ := executes
  refine ⟨budget' + steps, ?_, ends⟩
  rw [← same, conclude_of_le (Machine.enter_orderly _ _ _) (Nat.le_add_left steps budget),
    concluded]
  rw [concluded]
  exact ends

/-- **Programs compose by being put behind each other.** When the first program comes to its end
and no flag is raised, the whole has the endings of the second program, started with the
variables, the warnings and the input that the first has left, behind the lines and events of
the first. When a flag is raised, the whole has the endings of the first program, whatever the
second is. -/
theorem executes_append {front : List Token} {env : Environment}
    {console : Console} {steps : Nat} {machine : Machine}
    (completes : Exec.statements steps (.enter front env console) = .ok () machine)
    (back : List Token) (ending : Ending) (after : Console) :
    (machine.flags.interrupted = false →
      (Executes (front ++ back) env console ending after ↔
        ∃ own, Executes back machine.env machine.console.fresh ending own ∧
          after = machine.console.following own)) ∧
    (machine.flags.interrupted = true →
      (Executes (front ++ back) env console ending after ↔
        Executes front env console ending after)) := by
  obtain ⟨orderly, finished, left, goesOn⟩ :=
    Exec.statements_extend back (Machine.enter_orderly front env console) completes
  constructor
  · intro uninterrupted
    have reached := orderly.extend_eq finished uninterrupted back
    have same : ∀ extra,
        conclude (Exec.statements (steps + extra) (.enter (front ++ back) env console)) =
        conclude (Exec.statements (left + 1 + extra)
          (.enter back machine.env machine.console)) := by
      intro extra
      rw [show Machine.enter (front ++ back) env console =
        (Machine.enter front env console).extend back from rfl, goesOn, reached,
        conclude_behind]
    rw [← executes_following, Console.following_fresh]
    exact ⟨.of_conclude _ _ same, .of_conclude _ _ fun extra => (same extra).symm⟩
  · intro interrupted
    have stopped : (machine.extend back).finished = true := by
      rw [Machine.finished, Bool.or_eq_true]
      exact .inr interrupted
    have whole : ∀ extra,
        conclude (Exec.statements (steps + extra) (.enter (front ++ back) env console)) =
        conclude (.ok () machine) := by
      intro extra
      rw [show Machine.enter (front ++ back) env console =
        (Machine.enter front env console).extend back from rfl, goesOn, Nat.add_right_comm,
        Exec.statements_of_finished stopped]
      rfl
    have alone : ∀ extra,
        conclude (Exec.statements (steps + extra) (.enter front env console)) =
        conclude (.ok () machine) := by
      intro extra
      rw [← completes]
      refine conclude_of_le (Machine.enter_orderly _ _ _) (Nat.le_add_right steps extra) ?_
      rw [completes]
      intro spent
      cases spent
    exact ⟨.of_conclude _ _ fun extra => (whole extra).trans (alone extra).symm,
      .of_conclude _ _ fun extra => (alone extra).trans (whole extra).symm⟩

/-- A declaration. -/
def declaringTokens : List Token :=
  [⟨.marker, "^_^", none, 1, rfl⟩, ⟨.varKw, "keloğlan", none, 1, rfl⟩,
    ⟨.identifier, "x", none, 1, rfl⟩, ⟨.assign, "_", none, 1, rfl⟩,
    ⟨.number, "1", some (.int 1), 1, rfl⟩, ⟨.marker, "^_^", none, 1, rfl⟩]

/-- A line with the value of a variable, and then a break. -/
def printingTokens : List Token :=
  [⟨.marker, "^_^", none, 2, rfl⟩, ⟨.printKw, "tospik", none, 2, rfl⟩,
    ⟨.groupOpen, ")", none, 2, rfl⟩, ⟨.identifier, "x", none, 2, rfl⟩,
    ⟨.groupClose, "(", none, 2, rfl⟩, ⟨.marker, "^_^", none, 2, rfl⟩,
    ⟨.marker, "^_^", none, 3, rfl⟩, ⟨.breakKw, "tontiş", none, 3, rfl⟩,
    ⟨.marker, "^_^", none, 3, rfl⟩]

/-- The declaration hands its variable to what stands behind it; behind the break nothing is
looked at. -/
theorem executes_append_declaring :
    Executes (declaringTokens ++ printingTokens) { strict := true } {}
        (.reported ⟨none, none, [("x", .int 1)], []⟩) { output := #["1"] } ∧
      Executes (printingTokens ++ declaringTokens)
        { strict := true, bindings := [("x", .int 1)] } {}
        (.reported ⟨none, none, [("x", .int 1)], []⟩) { output := #["1"] } := by
  have declared : Exec.statements 3 (.enter declaringTokens { strict := true } {}) =
      .ok () { cursor := ⟨some ⟨.marker, "^_^", none, 1, rfl⟩, []⟩
               env := { strict := true, bindings := [("x", .int 1)] } } := by
    decide +kernel
  have printed :
      Exec.statements 4
        (.enter printingTokens { strict := true, bindings := [("x", .int 1)] } {}) =
      .ok () { cursor := ⟨some ⟨.marker, "^_^", none, 3, rfl⟩, []⟩
               env := { strict := true, bindings := [("x", .int 1)] }
               flags := { broke := true }
               console := { output := #["1"] } } := by
    decide +kernel
  have printing : Executes printingTokens { strict := true, bindings := [("x", .int 1)] } {}
      (.reported ⟨none, none, [("x", .int 1)], []⟩) { output := #["1"] } :=
    ⟨4, by rw [printed]; decide +kernel, nofun⟩
  exact ⟨((executes_append declared printingTokens _ _).1 rfl).mpr ⟨_, printing, rfl⟩,
    ((executes_append printed declaringTokens _ _).2 rfl).mpr printing⟩

end Program

end ToonScript
