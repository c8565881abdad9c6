import ToonScript.Proofs.Veil

/-!
# Tracing does not interfere

The verbosity of a console decides which events are kept and nothing else. A run with a lower
verbosity goes the same way as a run with a higher one: it comes to the same ending, writes and
reads the same lines, and its trace is what is left of the other trace when the events above the
lower verbosity are struck out (`Program.run_quieter`).

The console of the quieter run is a function of the console of the louder one
(`Console.quieter`). Every deed commutes with this function, and so does every plan
(`Plan.run_deaf`), whether it succeeds, stops or uses up its budget.
-/

set_option autoImplicit false

namespace ToonScript

/-- The console of a run with a lower verbosity, which has kept fewer events. -/
def Console.quieter (level : Nat) (console : Console) : Console :=
  { console with
    verbosity := level, trace := console.trace.filter fun event => event.level ≤ level }

/-- Every event is kept from some verbosity on, but never with verbosity zero. -/
theorem Event.level_pos (event : Event) : 0 < event.level := by
  cases event <;> exact Nat.succ_pos _

/-- The machine of a run with a lower verbosity. -/
def Machine.quieter (level : Nat) (machine : Machine) : Machine :=
  { machine with console := machine.console.quieter level }

theorem Console.note_verbosity (console : Console) (event : Event) :
    (console.note event).verbosity = console.verbosity := by
  unfold note
  split <;> rfl

/-- An event that the lower verbosity keeps is kept by the higher one too, so noting commutes
with striking out. -/
theorem Console.note_quieter {level : Nat} {console : Console}
    (below : level ≤ console.verbosity) (event : Event) :
    (console.quieter level).note event = (console.note event).quieter level := by
  by_cases kept : event.level ≤ level
  · have keptLoud : event.level ≤ console.verbosity := Nat.le_trans kept below
    simp only [note, quieter, kept, keptLoud, ↓reduceIte, Array.filter_push, decide_true]
  · by_cases keptLoud : event.level ≤ console.verbosity
    · simp only [note, quieter, kept, keptLoud, ↓reduceIte, Array.filter_push, decide_false,
        Bool.false_eq_true]
    · simp only [note, quieter, kept, keptLoud, ↓reduceIte]

/-! ## Computations that do not hear the verbosity -/

/-- The change to a lower verbosity. The verbosity is kept. -/
def Veil.quiet (level : Nat) : Veil Nat :=
  .ofConsole (Console.quieter level) Console.verbosity (level ≤ ·) (fun _ => rfl)
    Console.note_quieter (fun _ _ => rfl) Console.note_verbosity fun _ _ => rfl

/-- Every deed is deaf: a deed reads the console through its feed only, and adds to it only. -/
theorem Deed.perform_deaf (level : Nat) (deed : Deed) :
    Exec.Oblivious (.quiet level) deed.perform :=
  perform_oblivious (.quiet level) (fun name value _ =>
    .assign (fun _ => rfl) (fun _ _ _ => rfl) name value) fun _ _ _ => .ok rfl

/-- What every deed does alike, a plan does alike. -/
theorem Plan.run_deaf {α : Type} (level : Nat) (plan : Plan α) :
    Exec.Oblivious (.quiet level) plan.run := by
  induction plan with
  | done result => exact .pure result
  | stop reason => exact .throw reason
  | act deed next ih => exact (deed.perform_deaf level).bind ih

/-! ## Whole runs -/

namespace Program

variable {level : Nat} {console : Console}

theorem announce_verbosity (tokens : List Token) (console : Console) :
    (announce tokens console).verbosity = console.verbosity := by
  refine announce_keeps (fun after => after.verbosity = console.verbosity) ?_ tokens rfl
  exact fun event same => (Console.note_verbosity _ event).trans same

theorem announce_quieter (below : level ≤ console.verbosity) (tokens : List Token) :
    announce tokens (console.quieter level) = (announce tokens console).quieter level := by
  have related :=
    announce_relates (fun loud quiet => level ≤ loud.verbosity ∧
      quiet = loud.quieter level) ?_ tokens ⟨below, rfl⟩
  · exact related.2
  · rintro loud quiet event ⟨below, rfl⟩
    exact ⟨by rwa [Console.note_verbosity], Console.note_quieter below event⟩

/-- The conclusion of a run on the quieter machine: the same ending, on the quieter console. -/
theorem conclude_of_matched {machine : Machine}
    {result quietResult : EStateM.Result Stop Machine Unit}
    (below : level ≤ machine.console.verbosity) (matched : Exec.Matched (Machine.quieter level)
      (fun after => after.console.verbosity = machine.console.verbosity) result quietResult) :
    conclude quietResult = ((conclude result).1, (conclude result).2.quieter level) := by
  cases matched with
  | @ok a after kept =>
      have noted := Console.note_quieter (kept ▸ below) .finished
      exact Prod.ext rfl noted
  | @error reason after kept =>
      cases reason with
      | failure cause =>
          have noted := Console.note_quieter (kept ▸ below) (.failed cause)
          exact Prod.ext rfl noted
      | undefinedRemainder | outOfSteps => rfl

/-- A run with a lower verbosity comes to the same ending, on the quieter console. -/
theorem run_quieter (below : level ≤ console.verbosity) (steps : Nat) (strict : Bool)
    (tokens : List Token) :
    run steps strict tokens (console.quieter level) =
      ((run steps strict tokens console).1,
        (run steps strict tokens console).2.quieter level) := by
  have sameStart : initial strict tokens (console.quieter level) =
      (initial strict tokens console).quieter level := by
    rw [initial, announce_quieter below]
    rfl
  have belowStart : level ≤ (initial strict tokens console).console.verbosity := by
    show level ≤ (announce tokens console).verbosity
    rwa [announce_verbosity]
  rw [run_eq_conclude, run_eq_conclude, sameStart]
  exact conclude_of_matched belowStart ((Plan.statements steps).run_deaf level _ belowStart)

end Program

end ToonScript
