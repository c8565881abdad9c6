import ToonScript.Proofs.Concatenation
import ToonScript.Proofs.Tree.Printing
import ToonScript.Proofs.Veil

/-!
# Strict types stop a run at its first warning

Under strict types an assignment of a value whose type does not agree fails; otherwise it is
carried out and recorded as a mismatch, which a report shows as a warning. Nothing else in a run
looks at the strictness.

So a strict and a lenient run on the same program and console go the same way as long as no
mismatch is recorded (`Deed.perform_inStep`). At the first assignment that records one, the
strict run fails with the text of the warning, and its variables are the ones at that moment
(`Plan.strict_or_stopped`). The lenient run goes on from there; it only adds to what was written
and to the warnings (`Machine.Grows`).
-/

set_option autoImplicit false

namespace ToonScript

namespace Machine

/-- The machine under strict types. -/
def strictly (machine : Machine) : Machine :=
  { machine with env := { machine.env with strict := true } }

/-- A later machine has written and recorded everything that an earlier one has, in the same
order. -/
structure Grows (machine after : Machine) : Prop where
  output : machine.console.output.toList <+: after.console.output.toList
  mismatches : machine.env.mismatches.toList <+: after.env.mismatches.toList

theorem Grows.refl (machine : Machine) : machine.Grows machine :=
  ⟨List.prefix_rfl, List.prefix_rfl⟩

theorem Grows.trans {machine middle after : Machine} (first : machine.Grows middle)
    (second : middle.Grows after) : machine.Grows after :=
  ⟨first.output.trans second.output, first.mismatches.trans second.mismatches⟩

end Machine

/-! ## Computations that do not look at the strictness -/

/-- The change to strict types. The strictness and the mismatches are kept. -/
def Veil.strict : Veil (Bool × Array Mismatch) where
  env e := { e with strict := true }
  console c := c
  kept e _ := (e.strict, e.mismatches)
  fits _ := True
  env_bindings _ := rfl
  env_with _ _ := rfl
  console_groupLimit _ := rfl
  console_note _ _ := rfl
  console_write _ _ := rfl
  kept_with _ _ _ := rfl
  kept_note _ _ _ := rfl
  kept_write _ _ _ := rfl

/-- A later machine has the strictness and the mismatches of an earlier one. -/
def Machine.Unwarned (machine after : Machine) : Prop :=
  Veil.strict.keeps after = Veil.strict.keeps machine

namespace Machine.Unwarned

variable {machine after : Machine}

theorem strict (unwarned : machine.Unwarned after) : after.env.strict = machine.env.strict :=
  (Prod.mk.inj unwarned).1

theorem mismatches (unwarned : machine.Unwarned after) :
    after.env.mismatches = machine.env.mismatches :=
  (Prod.mk.inj unwarned).2

end Machine.Unwarned

/-- The results of a computation on a machine and on the machine under strict types: they agree,
and the computation records no mismatch. -/
abbrev Exec.InStep {α : Type} (machine : Machine) :
    EStateM.Result Stop Machine α → EStateM.Result Stop Machine α → Prop :=
  Matched Machine.strictly machine.Unwarned

/-- Every deed but an assignment goes the same way under strict types. -/
theorem Deed.perform_inStep {deed : Deed} (other : ∀ name value, deed ≠ .assign name value)
    (machine : Machine) :
    Exec.InStep machine (deed.perform machine) (deed.perform machine.strictly) :=
  perform_oblivious Veil.strict (fun name value is => absurd is (other name value))
    (fun _ _ _ => .ok rfl) machine trivial

/-! ## The first mismatch -/

/-- The failure of a mismatch under strict types. -/
def Mismatch.failure (mismatch : Mismatch) : Failure :=
  .mismatch mismatch.name mismatch.current mismatch.assigned

section Assignment

variable {machine : Machine} {name : Text} {value : Value}

/-- An assignment on a machine without strict types goes the same way under strict types, or it
records a mismatch, with which it fails under strict types. -/
theorem Exec.assign_strictly (lenient : machine.env.strict = false) (name : Text)
    (value : Value) :
    InStep machine (assign name value machine) (assign name value machine.strictly) ∨
      ∃ env mismatch, machine.env.assign name value = .ok (env, some mismatch) ∧
        assign name value machine.strictly =
          .error (.failure mismatch.failure) machine.strictly := by
  have sameBindings : machine.strictly.env.bindings = machine.env.bindings := rfl
  have strict : machine.strictly.env.strict = true := rfl
  cases known : machine.env.bindings.get? name with
  | none =>
      have refused : machine.env.assign name value = .error (.undeclared name) := by
        simp only [Environment.assign, known]
      have refused' : machine.strictly.env.assign name value = .error (.undeclared name) := by
        simp only [Environment.assign, sameBindings, known]
      rw [assign_of_error refused, assign_of_error refused']
      exact .inl (.error rfl)
  | some old =>
      by_cases agrees : old.ty.agrees value.ty
      · have assigned : machine.env.assign name value =
            .ok ({ machine.env with bindings := machine.env.bindings.set name value },
              none) := by
          simp only [Environment.assign, known, agrees, ↓reduceIte]
        have assigned' : machine.strictly.env.assign name value =
            .ok ({ machine.strictly.env with bindings := machine.env.bindings.set name value },
              none) := by
          simp only [Environment.assign, sameBindings, known, agrees, ↓reduceIte]
        rw [assign_of_agreeing assigned, assign_of_agreeing assigned']
        exact .inl (.ok rfl)
      · let mismatch : Mismatch := ⟨name, old.ty, value.ty⟩
        refine .inr ⟨{ machine.env with
          bindings := machine.env.bindings.set name value
          mismatches := machine.env.mismatches.push mismatch }, mismatch, ?_,
            assign_of_error ?_⟩
        · simp only [Environment.assign, known, agrees, lenient, Bool.false_eq_true, ↓reduceIte]
          rfl
        · simp only [Environment.assign, sameBindings, known, agrees, strict,
            Bool.false_eq_true, ↓reduceIte]
          rfl

end Assignment

/-- What is recorded and written only grows. -/
theorem Moment.grows (moment : Moment) : moment.machine.Grows moment.next := by
  have effect := moment.effect
  generalize moment.next = after, moment.deed = deed at effect
  cases effect with
  | assigned agreed =>
      exact ⟨List.prefix_rfl,
        (Environment.assign_eq_ok agreed).mismatches ▸ List.prefix_append _ _⟩
  | mismatched differed =>
      exact ⟨Console.note_output _ _ ▸ List.prefix_rfl,
        (Environment.assign_eq_ok differed).mismatches ▸ List.prefix_append _ _⟩
  | wrote => exact ⟨Array.toList_push ▸ List.prefix_append _ _, List.prefix_rfl⟩
  | noted => exact ⟨Console.note_output _ _ ▸ List.prefix_rfl, List.prefix_rfl⟩
  | moved | declared | redeclared | refused | took | returned | broke | continued | settled =>
      exact ⟨List.prefix_rfl, List.prefix_rfl⟩

namespace Plan

variable {α : Type}

/-- A plan carried out on a machine records a first mismatch, and stops there under strict
types. -/
structure StopsAt (plan : Plan α) (machine : Machine) (name : Text) (value : Value)
    (before : Machine) (mismatch : Mismatch) : Prop where
  moment : ∃ earlier later, plan.history machine =
    earlier ++ ⟨.assign name value, before⟩ :: later
  unwarned : before.env.mismatches = #[]
  records : ∃ env, before.env.assign name value = .ok (env, some mismatch)
  first : [mismatch] <+: (plan.final machine).env.mismatches.toList
  written : before.console.output.toList <+: (plan.final machine).console.output.toList
  strict : plan.run machine.strictly = .error (.failure mismatch.failure) before.strictly

/-- What is recorded and written only grows along a plan. -/
theorem final_grows (plan : Plan α) (machine : Machine) : machine.Grows (plan.final machine) :=
  final_kept .refl .trans (fun deed machine => Moment.grows ⟨deed, machine⟩) plan machine

/-- A plan goes the same way under strict types, or stops there at its first mismatch. -/
def StrictOrStopped (plan : Plan α) (machine : Machine) : Prop :=
  Exec.InStep machine (plan.run machine) (plan.run machine.strictly) ∨
    ∃ name value before mismatch, plan.StopsAt machine name value before mismatch

/-- The first mismatch of what follows a deed is the first mismatch of the whole. -/
theorem StopsAt.act {deed : Deed} {next : deed.Result → Plan α} {result : deed.Result}
    {machine after before : Machine} {name : Text} {value : Value} {mismatch : Mismatch}
    (performed : deed.perform machine = .ok result after)
    (performed' : deed.perform machine.strictly = .ok result after.strictly)
    (stops : (next result).StopsAt after name value before mismatch) :
    (act deed next).StopsAt machine name value before mismatch := by
  obtain ⟨earlier, later, parts⟩ := stops.moment
  refine ⟨⟨⟨deed, machine⟩ :: earlier, later, ?_⟩, stops.unwarned, stops.records, ?_, ?_, ?_⟩
  · rw [history_act_of_ok performed, parts, List.cons_append]
  · rw [final_act_of_ok performed]
    exact stops.first
  · rw [final_act_of_ok performed]
    exact stops.written
  · rw [run_act, bind_of_ok performed']
    exact stops.strict

/-- The step of the induction for a deed that goes the same way under strict types. -/
theorem StrictOrStopped.act {deed : Deed} {next : deed.Result → Plan α} {machine : Machine}
    (inStep : Exec.InStep machine (deed.perform machine) (deed.perform machine.strictly))
    (followed : ∀ result after, machine.Unwarned after → (next result).StrictOrStopped after) :
    (Plan.act deed next).StrictOrStopped machine := by
  generalize performed : deed.perform machine = result at inStep
  generalize performed' : deed.perform machine.strictly = strictResult at inStep
  cases inStep with
  | @ok result after unwarned =>
      rcases followed result after unwarned with alike | ⟨name, value, before, mismatch, stops⟩
      · refine .inl ?_
        rw [run_act, bind_of_ok performed, bind_of_ok performed']
        exact alike.imp fun unwarnedNext => unwarnedNext.trans unwarned
      · exact .inr ⟨name, value, before, mismatch, stops.act performed performed'⟩
  | error unwarned =>
      refine .inl ?_
      rw [run_act, bind_of_error performed, bind_of_error performed']
      exact .error unwarned

/-- An assignment that records a mismatch is where the run stops under strict types. -/
theorem StopsAt.assign {name : Text} {value : Value} {next : Unit → Plan α} {machine : Machine}
    {env : Environment} {mismatch : Mismatch} (unwarned : machine.env.mismatches = #[])
    (assigned : machine.env.assign name value = .ok (env, some mismatch))
    (fails : Exec.assign name value machine.strictly =
      .error (.failure mismatch.failure) machine.strictly) :
    (Plan.act (.assign name value) next).StopsAt machine name value machine mismatch := by
  have performed : (Deed.assign name value).perform machine =
      .ok () { machine with env, console := machine.console.note (.mismatched mismatch) } :=
    Exec.assign_of_mismatch assigned
  have grows := (next ()).final_grows
    { machine with env, console := machine.console.note (.mismatched mismatch) }
  have recorded : env.mismatches.toList = [mismatch] := by
    rw [(Environment.assign_eq_ok assigned).mismatches, unwarned]
    rfl
  refine ⟨⟨[], _, history_act_of_ok performed⟩, unwarned, ⟨env, assigned⟩, ?_, ?_,
    bind_of_error fails⟩
  · rw [final_act_of_ok performed, ← recorded]
    exact grows.mismatches
  · rw [final_act_of_ok performed]
    exact Console.note_output machine.console (.mismatched mismatch) ▸ grows.output

theorem final_unwarned {plan : Plan α} {machine : Machine}
    {strictResult : EStateM.Result Stop Machine α}
    (inStep : Exec.InStep machine (plan.run machine) strictResult) :
    machine.Unwarned (plan.final machine) := by
  generalize carried : plan.run machine = result at inStep
  cases inStep with
  | ok unwarned => exact final_of_ok carried ▸ unwarned
  | error unwarned => exact final_of_error carried ▸ unwarned

/-- On a machine without mismatches and strict types, every plan goes the same way under strict
types, or stops there at its first mismatch. -/
theorem strictOrStopped (plan : Plan α) (machine : Machine)
    (lenient : machine.env.strict = false) (unwarned : machine.env.mismatches = #[]) :
    plan.StrictOrStopped machine := by
  induction plan generalizing machine with
  | done result => exact .inl (.ok rfl)
  | stop reason => exact .inl (.error rfl)
  | act deed next ih =>
      have followed : ∀ result after, machine.Unwarned after →
          (next result).StrictOrStopped after :=
        fun result after kept => ih result after (kept.strict.trans lenient)
          (kept.mismatches.trans unwarned)
      by_cases assigns : ∃ name value, deed = .assign name value
      · obtain ⟨name, value, rfl⟩ := assigns
        rcases Exec.assign_strictly lenient name value with
          inStep | ⟨env, mismatch, assigned, fails⟩
        · exact .act inStep followed
        · exact .inr ⟨name, value, machine, mismatch, .assign unwarned assigned fails⟩
      · exact .act (Deed.perform_inStep (fun name value is => assigns ⟨name, value, is⟩)
          machine) followed

end Plan

/-! ## Whole runs -/

namespace Program

/-- Runs that go the same way come to the same ending on the same console. -/
theorem conclude_of_inStep {machine : Machine}
    {result result' : EStateM.Result Stop Machine Unit}
    (inStep : Exec.InStep machine result result') : conclude result' = conclude result := by
  cases inStep with
  | ok => rfl
  | @error reason after =>
      cases reason with
      | failure cause => rfl
      | undefinedRemainder | outOfSteps => rfl

/-- A run without strict types that has no warning goes the same way as the run with strict
types, and one that has warnings holds the moment at which the run with strict types stops. -/
theorem strict_or_stopped (steps : Nat) (tokens : List Token) (console : Console) :
    ((final steps false tokens console).env.mismatches = #[] ∧
      run steps true tokens console = run steps false tokens console) ∨
    ∃ name value before mismatch,
      (Plan.statements steps).StopsAt (initial false tokens console) name value before
        mismatch := by
  have sameStart : initial true tokens console = (initial false tokens console).strictly := rfl
  rcases (Plan.statements steps).strictOrStopped (initial false tokens console) rfl rfl with
    inStep | stops
  · refine .inl ⟨(Plan.final_unwarned inStep).mismatches, ?_⟩
    rw [run_eq_conclude, run_eq_conclude, sameStart]
    exact conclude_of_inStep inStep
  · exact .inr stops

/-- **Strict types stop a run at its first warning.** The warnings of a run without strict types
are those of its report, if it has one. If there are none, the run with strict types is the same
in every respect. Otherwise it fails with the text of the first warning; it has no warnings,
what it has written is the begin of what the run without strict types writes, and its variables
are the ones which that run has right before the assignment that gives its first warning. -/
theorem strict_run_stops_at_first_warning (steps : Nat) (tokens : List Token)
    (console : Console) :
    (∀ report after, run steps false tokens console = (.reported report, after) →
      report.warnings = (final steps false tokens console).env.warnings) ∧
    ((final steps false tokens console).env.warnings = [] →
      run steps true tokens console = run steps false tokens console) ∧
    (∀ first more, (final steps false tokens console).env.warnings = first :: more →
      ∃ cause before after, run steps true tokens console =
          (.reported
            { failure := some cause, returnValue := none, bindings := before.env.bindings,
              warnings := [] }, after) ∧
        cause.category.label = "TypeError" ∧ cause.message = first ∧ cause.location? = none ∧
        after.output.toList <+: (run steps false tokens console).2.output.toList ∧
        ∃ earlier name value later env mismatch,
          history steps false tokens console =
            earlier ++ ⟨.assign name value, before⟩ :: later ∧
          before.env.warnings = [] ∧ before.env.assign name value = .ok (env, some mismatch) ∧
          mismatch.message = first) := by
  refine ⟨fun report after reported => warnings_of_reported reported, fun none => ?_,
    fun first more some => ?_⟩
  · rcases strict_or_stopped steps tokens console with
      ⟨-, same⟩ | ⟨name, value, before, mismatch, stops⟩
    · exact same
    · have nothing : (final steps false tokens console).env.mismatches.toList = [] :=
        List.map_eq_nil_iff.mp none
      have recorded := stops.first
      rw [← final, nothing] at recorded
      exact absurd recorded (by simp)
  · rcases strict_or_stopped steps tokens console with
      ⟨nothing, -⟩ | ⟨name, value, before, mismatch, stops⟩
    · rw [Environment.warnings, nothing] at some
      cases some
    · obtain ⟨earlier, later, moment⟩ := stops.moment
      obtain ⟨env, records⟩ := stops.records
      have unwarned : before.env.warnings = [] := by
        rw [Environment.warnings, stops.unwarned]; rfl
      have isFirst : mismatch.message = first := by
        obtain ⟨others, parts⟩ := stops.first
        rw [Environment.warnings, final, ← parts] at some
        exact (List.cons.inj some).1
      have written : (before.console.note (.failed mismatch.failure)).output.toList <+:
          (run steps false tokens console).2.output.toList := by
        rw [Console.note_output, run_output]
        exact stops.written
      have stopped : run steps true tokens console =
          conclude (.error (.failure mismatch.failure) before.strictly) := by
        rw [run_eq_conclude, ← stops.strict]
        rfl
      have reported : report before.strictly (Option.some mismatch.failure) =
          { failure := Option.some mismatch.failure, returnValue := none,
            bindings := before.env.bindings, warnings := [] } := by
        rw [← unwarned]
        rfl
      refine ⟨mismatch.failure, before, before.console.note (.failed mismatch.failure), ?_,
        rfl, isFirst, rfl, written, earlier, name, value, later, env, mismatch, moment,
        unwarned, records, isFirst⟩
      rw [stopped, ← reported]
      rfl

/-- A variable is declared as a number, printed, assigned a text and printed again. -/
def retypingTokens : List Token :=
  declaringTokens ++ List.map Symbol.token
    [.sign .marker, .sign .printKw, .sign .groupOpen, .name "x", .sign .groupClose,
      .sign .marker, .sign .marker, .name "x", .sign .assign, .literal (.string "a"),
      .sign .marker, .sign .marker, .sign .printKw, .sign .groupOpen, .name "x",
      .sign .groupClose, .sign .marker]

/-- The declaration alone gives no warning; the assignment of a text gives one, between the two
lines. -/
theorem strict_run_stops_at_first_warning_retyping :
    run 3 true declaringTokens {} = run 3 false declaringTokens {} ∧
    (run 6 false retypingTokens {}).2.output = (#["1", "a"] : Array Text) ∧
    ∃ (cause : Failure) (before : Machine) (after : Console), run 6 true retypingTokens {} =
        (.reported
          { failure := some cause, returnValue := none, bindings := before.env.bindings,
            warnings := [] }, after) ∧
      cause.category.label = "TypeError" ∧
      cause.message = "type mismatch for variable x: current INT, assigned STRING" := by
  obtain ⟨-, noWarning, -⟩ := strict_run_stops_at_first_warning 3 declaringTokens {}
  obtain ⟨-, -, oneWarning⟩ := strict_run_stops_at_first_warning 6 retypingTokens {}
  have warned : (final 6 false retypingTokens {}).env.warnings =
      (["type mismatch for variable x: current INT, assigned STRING"] : List Text) := by
    decide +kernel
  obtain ⟨cause, before, after, reported, label, message, -⟩ := oneWarning _ _ warned
  exact ⟨noWarning (by decide +kernel), by decide +kernel, cause, before, after, reported,
    label, message⟩

end Program

end ToonScript
