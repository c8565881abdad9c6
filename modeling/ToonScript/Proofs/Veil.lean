import ToonScript.Proofs.Timeline

/-!
# Changes that a computation does not see

Several results compare a run with the run from a machine that was changed in one respect: in
its strictness, in its verbosity or in its feed. A veil is such a change of environments and
consoles, together with what a computation keeps that does not see the change.

A computation is oblivious of a veil when it goes the same way on a machine and on the changed
one, to the same result and to machines that differ by the same change. Scanning, looking up,
declaring and noting are oblivious of every veil. So is every deed, if it neither assigns nor
reads (`Deed.perform_oblivious`); what these two do has to be shown for the veil at hand.
-/

set_option autoImplicit false

namespace ToonScript

/-- A change of environments and consoles that leaves the variables and the limit as they are,
and that commutes with whatever is noted and written. Something about the machine is kept, and
the change is used where this fits. -/
structure Veil (Kept : Type) where
  env : Environment → Environment
  console : Console → Console
  kept : Environment → Console → Kept
  fits : Kept → Prop
  env_bindings : ∀ e : Environment, (env e).bindings = e.bindings
  env_with : ∀ (e : Environment) (bindings : Bindings), env { e with bindings } =
    { env e with bindings }
  console_groupLimit : ∀ c : Console, (console c).groupLimit = c.groupLimit
  console_note : ∀ {e : Environment} {c : Console}, fits (kept e c) →
    ∀ event, (console c).note event = console (c.note event)
  console_write : ∀ (c : Console) (line : Text), (console c).write line = console (c.write line)
  kept_with : ∀ (e : Environment) (c : Console) (bindings : Bindings),
    kept { e with bindings } c = kept e c
  kept_note : ∀ (e : Environment) (c : Console) (event : Event),
    kept e (c.note event) = kept e c
  kept_write : ∀ (e : Environment) (c : Console) (line : Text), kept e (c.write line) = kept e c

namespace Veil

variable {Kept : Type} (veil : Veil Kept)

/-- The machine with the change. -/
def apply (machine : Machine) : Machine :=
  { machine with env := veil.env machine.env, console := veil.console machine.console }

/-- What a machine keeps. -/
def keeps (machine : Machine) : Kept := veil.kept machine.env machine.console

/-- A change of the console alone, of which something is kept. -/
def ofConsole (change : Console → Console) (kept : Console → Kept) (fits : Kept → Prop)
    (groupLimit : ∀ c, (change c).groupLimit = c.groupLimit)
    (note : ∀ {c}, fits (kept c) → ∀ event, (change c).note event = change (c.note event))
    (write : ∀ c line, (change c).write line = change (c.write line))
    (keptNote : ∀ c event, kept (c.note event) = kept c)
    (keptWrite : ∀ c line, kept (c.write line) = kept c) :
    Veil Kept where
  env e := e
  console := change
  kept _ c := kept c
  fits := fits
  env_bindings _ := rfl
  env_with _ _ := rfl
  console_groupLimit := groupLimit
  console_note := note
  console_write := write
  kept_with _ _ _ := rfl
  kept_note _ := keptNote
  kept_write _ := keptWrite

end Veil

namespace Exec

variable {α β Kept : Type} {veil : Veil Kept}

/-- Two results that agree: the machine of the second is the image of the first one, of which
something holds. -/
inductive Matched (image : Machine → Machine) (holds : Machine → Prop) :
    EStateM.Result Stop Machine α → EStateM.Result Stop Machine α → Prop where
  | ok {a : α} {after : Machine} (held : holds after) :
      Matched image holds (.ok a after) (.ok a (image after))
  | error {reason : Stop} {after : Machine} (held : holds after) :
      Matched image holds (.error reason after) (.error reason (image after))

theorem Matched.imp {image : Machine → Machine} {holds holds' : Machine → Prop}
    {result result' : EStateM.Result Stop Machine α}
    (matched : Matched image holds result result')
    (implies : ∀ {after}, holds after → holds' after) :
    Matched image holds' result result' := by
  cases matched with
  | ok held => exact .ok (implies held)
  | error held => exact .error (implies held)

/-- A computation that goes the same way on a machine and on the changed one, and keeps what is
to be kept. -/
def Oblivious (veil : Veil Kept) (computation : Exec α) : Prop :=
  ∀ machine, veil.fits (veil.keeps machine) →
    Matched veil.apply (fun after => veil.keeps after = veil.keeps machine)
      (computation machine) (computation (veil.apply machine))

namespace Oblivious

theorem bind {first : Exec α} {next : α → Exec β} (oblivious : Oblivious veil first)
    (obliviousNext : ∀ a, Oblivious veil (next a)) : Oblivious veil (first >>= next) := by
  intro machine fits
  have begun := oblivious machine fits
  generalize here : first machine = result at begun
  generalize there : first (veil.apply machine) = other at begun
  cases begun with
  | @ok a after kept =>
      rw [bind_of_ok here, bind_of_ok there]
      exact (obliviousNext a after (kept ▸ fits)).imp fun keptNext => keptNext.trans kept
  | error kept =>
      rw [bind_of_error here, bind_of_error there]
      exact .error kept

theorem pure (a : α) : Oblivious veil (pure a : Exec α) := fun _ _ => .ok rfl

theorem throw (reason : Stop) : Oblivious veil (throw reason : Exec α) := fun _ _ => .error rfl

theorem scan (computation : Scan α) : Oblivious veil (scan computation) := by
  intro machine _
  cases scanned : computation machine.cursor with
  | ok a cursor =>
      have there : computation (veil.apply machine).cursor = .ok a cursor := scanned
      rw [scan_of_ok scanned, scan_of_ok there]
      exact .ok rfl
  | error reason cursor =>
      have there : computation (veil.apply machine).cursor = .error reason cursor := scanned
      rw [scan_of_error scanned, scan_of_error there]
      exact .error rfl

/-- An evaluation looks at the variables and the limit, which the change leaves as they are. -/
theorem evaluate : Oblivious veil evaluate := by
  intro machine fits
  have sameBindings : (veil.apply machine).env.bindings = machine.env.bindings :=
    veil.env_bindings _
  have sameLimit : (veil.apply machine).console.groupLimit = machine.console.groupLimit :=
    veil.console_groupLimit _
  rw [evaluate_eq, evaluate_eq, sameBindings, sameLimit]
  exact scan _ machine fits

theorem note (event : Event) : Oblivious veil (note event) := by
  intro machine fits
  have there : Exec.note event (veil.apply machine) =
      .ok () (veil.apply { machine with console := machine.console.note event }) := by
    show EStateM.Result.ok () { veil.apply machine with
      console := (veil.console machine.console).note event } = _
    rw [veil.console_note fits]
    rfl
  rw [there]
  exact .ok (veil.kept_note _ _ event)

theorem write (line : Text) : Oblivious veil (write line) := by
  intro machine _
  have there : Exec.write line (veil.apply machine) =
      .ok () (veil.apply { machine with console := machine.console.write line }) := by
    show EStateM.Result.ok () { veil.apply machine with
      console := (veil.console machine.console).write line } = _
    rw [veil.console_write]
    rfl
  rw [there]
  exact .ok (veil.kept_write _ _ line)

theorem lookup (name : Text) : Oblivious veil (lookup name) := by
  intro machine _
  have sameLookup : (veil.apply machine).env.lookup name = machine.env.lookup name := by
    rw [Environment.lookup, Environment.lookup, Veil.apply, veil.env_bindings]
  simp only [Exec.lookup, get_bind, sameLookup]
  cases machine.env.lookup name with
  | ok value => exact .ok rfl
  | error cause => exact .error rfl

theorem valueOf (name : Text) : Oblivious veil (do return (← get).env.bindings.get? name) := by
  intro machine _
  have sameBindings : (veil.apply machine).env.bindings = machine.env.bindings :=
    veil.env_bindings _
  rw [get_bind, get_bind, sameBindings]
  exact .ok rfl

theorem combine (name : Text) (operand : Value) (assignment : Assignment) :
    Oblivious veil (combine name operand assignment) := by
  cases assignment with
  | plain => exact pure operand
  | combined op => exact (lookup name).bind fun _ => scan _

theorem declare (name : Text) (value : Value) : Oblivious veil (declare name value) := by
  intro machine _
  have sameBindings : (veil.apply machine).env.bindings = machine.env.bindings :=
    veil.env_bindings _
  have sameDeclares : (veil.apply machine).env.declares name = machine.env.declares name := by
    rw [Environment.declares, sameBindings, Environment.declares]
  cases known : machine.env.declares name with
  | true =>
      rw [declare_of_known known, declare_of_known (sameDeclares.trans known)]
      exact .error rfl
  | false =>
      let declared : Machine :=
        { machine with
          env := { machine.env with bindings := machine.env.bindings ++ [(name, value)] } }
      have there : Exec.declare name value (veil.apply machine) =
          .ok () (veil.apply declared) := by
        have veiled := veil.env_with machine.env (machine.env.bindings ++ [(name, value)])
        rw [declare_of_fresh (sameDeclares.trans known), sameBindings]
        simp only [Veil.apply, declared, veiled]
      rw [declare_of_fresh known, there]
      exact .ok (veil.kept_with _ _ _)

/-- An assignment looks at the whole environment, so the change must not touch it and nothing
about it may be kept. -/
theorem assign (unchanged : ∀ e, veil.env e = e)
    (unkept : ∀ e e' c, veil.kept e c = veil.kept e' c) (name : Text) (value : Value) :
    Oblivious veil (assign name value) := by
  intro machine fits
  have sameEnv : (veil.apply machine).env = machine.env := unchanged _
  simp only [Exec.assign, get_bind, sameEnv]
  cases machine.env.assign name value with
  | error cause => exact .error rfl
  | ok assigned =>
      obtain ⟨env, mismatch⟩ := assigned
      have setEnv :
          Oblivious veil (modify fun machine => { machine with env } : Exec Unit) := by
        intro machine _
        have there : veil.apply { machine with env } = { veil.apply machine with env } := by
          rw [Veil.apply, unchanged]
          rfl
        show Matched _ _ (.ok () { machine with env }) (.ok () { veil.apply machine with env })
        rw [← there]
        exact .ok (unkept _ _ _)
      refine setEnv.bind (fun _ => ?_) machine fits
      cases mismatch with
      | some mismatch => exact note _
      | none => exact pure ()

end Oblivious

end Exec

/-- Every deed is oblivious of every veil, if it neither assigns nor reads. -/
theorem Deed.perform_oblivious {Kept : Type} (veil : Veil Kept) {deed : Deed}
    (assigns : ∀ name value, deed = .assign name value →
      Exec.Oblivious veil (Exec.assign name value))
    (reads : deed = .read → Exec.Oblivious veil Exec.read) :
    Exec.Oblivious veil deed.perform := by
  cases deed with
  | pass | expect | expectName => exact (Exec.Oblivious.scan _).bind fun _ => .pure _
  | skipBlock | closing => exact .scan _
  | evaluate => exact .evaluate
  | combine name operand assignment => exact .combine name operand assignment
  | declare name value => exact .declare name value
  | assign name value => exact assigns name value rfl
  | read => exact reads rfl
  | write value => exact .write value.text
  | note event => exact .note event
  | valueOf name => exact .valueOf name
  | beginStatement | enterBlock | place | peek | flags => exact fun _ _ => .ok rfl
  | moveTo | giveBack | breakOff | goOn | settle => exact fun _ _ => .ok rfl

end ToonScript
