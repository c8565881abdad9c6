import ToonScript.Proofs.Timeline
import ToonScript.Proofs.ValueTypes

/-!
# Variables over time

Names are declared one after another and stay declared: from any machine of a run to any later
one the list of names only grows at its end, and it never holds a name twice. So a declaration
that is carried out again, in the body of a loop, is refused.

The types of values that a source text can come to fall into three families. Under strict types
a variable stays in the family of its declaration; otherwise every assignment across families,
and nothing else, leaves a warning. Input takes the type of the variable and therefore never
changes it.

All of this follows from what one deed does to the variables (`Moment.change`).
-/

set_option autoImplicit false

namespace ToonScript

/-! ## Names and values -/

namespace Bindings

variable {bindings : Bindings} {name : Text}

/-- The declared names, in the order of declaration. -/
def names (bindings : Bindings) : List Text := bindings.map Prod.fst

/-- The declared names with the types of their values. -/
def types (bindings : Bindings) : List (Text × Ty) :=
  bindings.map fun entry => (entry.1, entry.2.ty)

theorem names_set (bindings : Bindings) (name : Text) (value : Value) :
    (bindings.set name value).names = bindings.names := by
  induction bindings with
  | nil => rfl
  | cons entry rest ih =>
      obtain ⟨key, bound⟩ := entry
      by_cases same : key = name
      · simp only [set, same, ↓reduceIte, names, List.map_cons]
      · simp only [set, same, ↓reduceIte, names, List.map_cons, List.cons.injEq, true_and]
        exact ih

/-- A value of the same type leaves the types as they are. -/
theorem types_set {old value : Value} (known : bindings.get? name = some old)
    (sameType : value.ty = old.ty) :
    (bindings.set name value).types = bindings.types := by
  induction bindings with
  | nil => cases known
  | cons entry rest ih =>
      obtain ⟨key, bound⟩ := entry
      by_cases same : key = name
      · simp only [get?, same, ↓reduceIte, Option.some.injEq] at known
        simp only [set, same, ↓reduceIte, types, List.map_cons, sameType, known]
      · simp only [get?, same, ↓reduceIte] at known
        simp only [set, same, ↓reduceIte, types, List.map_cons, List.cons.injEq, true_and]
        exact ih known

theorem isSome_get?_iff : (bindings.get? name).isSome ↔ name ∈ bindings.names := by
  induction bindings with
  | nil => simp [get?, names]
  | cons entry rest ih =>
      obtain ⟨key, bound⟩ := entry
      by_cases same : key = name
      · simp [get?, names, same]
      · have other : name ≠ key := fun equal => same equal.symm
        simp only [get?, same, ↓reduceIte, ih, names, List.map_cons, List.mem_cons,
          other, false_or]

theorem get?_append_of_some {value : Value} (known : bindings.get? name = some value)
    (more : Bindings) : get? (bindings ++ more) name = some value := by
  induction bindings with
  | nil => cases known
  | cons entry rest ih =>
      obtain ⟨key, bound⟩ := entry
      by_cases same : key = name
      · simpa only [get?, same, List.cons_append, ↓reduceIte] using known
      · simp only [get?, same, List.cons_append, ↓reduceIte] at known ⊢
        exact ih known

theorem get?_append_of_none (unknown : bindings.get? name = none) (more : Bindings) :
    get? (bindings ++ more) name = more.get? name := by
  induction bindings with
  | nil => rfl
  | cons entry rest ih =>
      obtain ⟨key, bound⟩ := entry
      by_cases same : key = name
      · simp only [get?, same, ↓reduceIte] at unknown
        cases unknown
      · simp only [get?, same, List.cons_append, ↓reduceIte] at unknown ⊢
        exact ih unknown

theorem get?_set_self {old : Value} (known : bindings.get? name = some old) (value : Value) :
    (bindings.set name value).get? name = some value := by
  induction bindings with
  | nil => cases known
  | cons entry rest ih =>
      obtain ⟨key, bound⟩ := entry
      by_cases same : key = name
      · simp only [set, same, ↓reduceIte, get?]
      · simp only [get?, same, ↓reduceIte] at known
        simp only [set, same, ↓reduceIte, get?]
        exact ih known

theorem get?_set_of_ne {other : Text} (differs : other ≠ name) (value : Value) :
    (bindings.set name value).get? other = bindings.get? other := by
  induction bindings with
  | nil => rfl
  | cons entry rest ih =>
      obtain ⟨key, bound⟩ := entry
      by_cases same : key = name
      · have notOther : name ≠ other := fun equal => differs equal.symm
        simp only [set, same, ↓reduceIte, get?, notOther]
      · simp only [set, same, ↓reduceIte, get?, ih]

end Bindings

theorem Environment.declares_iff {env : Environment} {name : Text} :
    env.declares name ↔ name ∈ env.bindings.names :=
  Bindings.isSome_get?_iff

/-! ## Families of types -/

/-- The families of types that values of a source text fall into. -/
inductive Ty.Family where
  | numeric | boolean | string
deriving DecidableEq

/-- The family of a type. -/
def Ty.family? : Ty → Option Family
  | int | float => some .numeric
  | boolean => some .boolean
  | string => some .string
  | char | void | unknown => none

theorem Ty.exists_family {ty : Ty} (plain : ty.isPlain) :
    ∃ family, ty.family? = some family := by
  cases ty with
  | int | float | boolean | string => exact ⟨_, rfl⟩
  | char | void | unknown => cases plain

/-- Plain types agree where they are of one family. -/
theorem Ty.agrees_iff_family {current assigned : Ty} (plain : current.isPlain)
    (plainAssigned : assigned.isPlain) :
    current.agrees assigned ↔ current.family? = assigned.family? := by
  cases current with
  | int | float | boolean | string =>
      cases assigned with
      | int | float | boolean | string => decide
      | char | void | unknown => cases plainAssigned
  | char | void | unknown => cases plain

/-! ## What a deed does to the variables -/

namespace Moment

/-- The name that a moment declares, if its deed is a declaration that is carried out. -/
def declared? (moment : Moment) : Option Text :=
  match moment.deed with
  | .declare name _ => if moment.machine.env.declares name then none else some name
  | _ => none

/-- The warning that is due at a moment: its deed assigns a variable a value of another family.
-/
def warning? (moment : Moment) : Option Text :=
  match moment.deed with
  | .assign name value =>
    (moment.machine.env.bindings.get? name).bind fun current =>
      if current.ty.family? = value.ty.family? then none
      else some (Failure.mismatchMessage name current.ty value.ty)
  | _ => none

end Moment

/-- What a deed does to the variables. -/
inductive Environment.Change (env : Environment) : Deed → Environment → Prop where
  | kept {deed : Deed}
      (other : ∀ name value, deed ≠ .declare name value ∧ deed ≠ .assign name value) :
      Change env deed env
  | declared {name : Text} {value : Value} (fresh : env.declares name = false) :
      Change env (.declare name value) { env with bindings := env.bindings ++ [(name, value)] }
  | redeclared {name : Text} {value : Value} (known : env.declares name = true) :
      Change env (.declare name value) env
  | assigned {name : Text} {value : Value} {after : Environment} {mismatch : Option Mismatch}
      (succeeds : env.assign name value = .ok (after, mismatch)) :
      Change env (.assign name value) after
  | refused {name : Text} {value : Value} {cause : Failure}
      (stops : env.assign name value = .error cause) :
      Change env (.assign name value) env

theorem Moment.change (moment : Moment) :
    moment.machine.env.Change moment.deed moment.next.env := by
  have effect := moment.effect
  generalize moment.next = after at effect ⊢
  obtain ⟨deed, machine⟩ := moment
  cases effect with
  | moved isMove cursor =>
      refine .kept fun name value => ⟨?_, ?_⟩
      · rintro rfl
        cases isMove
      · rintro rfl
        cases isMove
  | declared fresh => exact .declared fresh
  | redeclared known => exact .redeclared known
  | assigned agreed => exact .assigned agreed
  | mismatched differed => exact .assigned differed
  | refused refused => exact .refused refused
  | took | wrote | noted | returned | broke | continued | settled =>
      exact .kept fun _ _ => ⟨nofun, nofun⟩

namespace Environment

variable {env after : Environment} {name : Text} {value : Value}

/-- Without strict types only an assignment to an unknown name is refused. -/
theorem get?_of_refused (lenient : env.strict = false) {cause : Failure}
    (refused : env.assign name value = .error cause) :
    env.bindings.get? name = none := by
  unfold assign at refused
  cases known : env.bindings.get? name with
  | none => rfl
  | some old =>
      simp only [known, lenient, Bool.false_eq_true, ↓reduceIte] at refused
      split at refused <;> cases refused

/-- Under strict types an assignment that is carried out agrees with the variable. -/
theorem agrees_of_assigned (strict : env.strict = true) {mismatch : Option Mismatch}
    (assigned : env.assign name value = .ok (after, mismatch)) :
    ∃ old, env.bindings.get? name = some old ∧ old.ty.agrees value.ty := by
  unfold assign at assigned
  cases known : env.bindings.get? name with
  | none =>
      rw [known] at assigned
      cases assigned
  | some old =>
      simp only [known, strict, ↓reduceIte] at assigned
      split at assigned
      · next agrees => exact ⟨old, rfl, agrees⟩
      · cases assigned

end Environment

namespace Moment

variable {moment : Moment}

theorem next_strict (moment : Moment) : moment.next.env.strict = moment.machine.env.strict := by
  have change := moment.change
  generalize moment.next.env = after at change ⊢
  obtain ⟨deed, machine⟩ := moment
  cases change with
  | kept | declared | redeclared | refused => rfl
  | assigned succeeds => exact (Environment.assign_eq_ok succeeds).strict

/-- A deed adds at most one name, at the end. -/
theorem next_names (moment : Moment) :
    moment.next.env.bindings.names = moment.machine.env.bindings.names ++
      moment.declared?.toList := by
  have change := moment.change
  generalize moment.next.env = after at change ⊢
  obtain ⟨deed, machine⟩ := moment
  cases change with
  | kept other =>
      cases deed with
      | declare name value => exact absurd rfl (other name value).1
      | _ => exact (List.append_nil _).symm
  | declared fresh => simp [Bindings.names, declared?, fresh]
  | redeclared known => simp [declared?, known]
  | assigned succeeds =>
      rw [(Environment.assign_eq_ok succeeds).bindings, Bindings.names_set]
      exact (List.append_nil _).symm
  | refused => exact (List.append_nil _).symm

theorem not_mem_names_of_declared? {name : Text} (declares : moment.declared? = some name) :
    name ∉ moment.machine.env.bindings.names := by
  obtain ⟨deed, machine⟩ := moment
  cases deed with
  | declare key value =>
      simp only [declared?] at declares
      split at declares
      · cases declares
      · next fresh =>
          cases declares
          rwa [Environment.declares_iff] at fresh
  | _ => cases declares

theorem next_names_nodup (distinct : moment.machine.env.bindings.names.Nodup) :
    moment.next.env.bindings.names.Nodup := by
  rw [next_names]
  cases declares : moment.declared? with
  | none => simpa using distinct
  | some name =>
      refine List.nodup_append.mpr ⟨distinct, List.pairwise_singleton _ name,
        fun known member other only => ?_⟩
      rw [List.mem_singleton.mp only]
      rintro rfl
      exact not_mem_names_of_declared? declares member

/-- Without strict types, a deed of a plain program leaves exactly the warning that is due. -/
theorem next_warnings {tokens : List Token} (plain : moment.machine.Plain tokens)
    (allowed : moment.deed.Allowed tokens) (lenient : moment.machine.env.strict = false) :
    moment.next.env.warnings = moment.machine.env.warnings ++ moment.warning?.toList := by
  have change := moment.change
  generalize moment.next.env = after at change ⊢
  obtain ⟨deed, machine⟩ := moment
  cases change with
  | kept other =>
      cases deed with
      | assign name value => exact absurd rfl (other name value).2
      | _ => exact (List.append_nil _).symm
  | declared | redeclared => exact (List.append_nil _).symm
  | @assigned name value _ mismatch succeeds =>
      obtain ⟨⟨old, known, differs⟩, -, -, recorded⟩ := Environment.assign_eq_ok succeeds
      have plainOld : old.ty.isPlain := plain.bindings _ (Bindings.mem_of_get? known)
      have agreement := Ty.agrees_iff_family plainOld allowed
      rw [Environment.warnings, recorded, List.map_append]
      congr 1
      by_cases sameFamily : old.ty.family? = value.ty.family?
      · rw [if_pos (agreement.mpr sameFamily)] at differs
        simp [warning?, known, sameFamily, differs]
      · rw [if_neg (mt agreement.mp sameFamily)] at differs
        simp [warning?, known, sameFamily, differs, Mismatch.message]
  | refused stops => simp [warning?, Environment.get?_of_refused lenient stops]

end Moment

/-- Every variable of the first environment is in the same family in the second one. -/
def Environment.KeepsFamilies (env after : Environment) : Prop :=
  ∀ name value, env.bindings.get? name = some value →
    ∃ current, after.bindings.get? name = some current ∧ current.ty.family? = value.ty.family?

theorem Environment.KeepsFamilies.refl (env : Environment) : env.KeepsFamilies env :=
  fun _ value known => ⟨value, known, rfl⟩

theorem Environment.KeepsFamilies.trans {env middle after : Environment}
    (first : env.KeepsFamilies middle) (second : middle.KeepsFamilies after) :
    env.KeepsFamilies after := by
  intro name value known
  obtain ⟨between, knownBetween, sameFirst⟩ := first name value known
  obtain ⟨current, knownAfter, sameSecond⟩ := second name between knownBetween
  exact ⟨current, knownAfter, sameSecond.trans sameFirst⟩

/-- Under strict types, a deed of a plain program leaves every variable in its family. -/
theorem Moment.next_keepsFamilies {moment : Moment} {tokens : List Token}
    (plain : moment.machine.Plain tokens) (allowed : moment.deed.Allowed tokens)
    (strict : moment.machine.env.strict = true) :
    moment.machine.env.KeepsFamilies moment.next.env := by
  have change := moment.change
  generalize moment.next.env = after at change ⊢
  obtain ⟨deed, machine⟩ := moment
  cases change with
  | kept | redeclared | refused => exact .refl _
  | declared fresh =>
      exact fun name value known => ⟨value, Bindings.get?_append_of_some known _, rfl⟩
  | @assigned name value _ mismatch succeeds =>
      obtain ⟨old, known, agrees⟩ := Environment.agrees_of_assigned strict succeeds
      have plainOld : old.ty.isPlain := plain.bindings _ (Bindings.mem_of_get? known)
      intro other bound knownOther
      rw [(Environment.assign_eq_ok succeeds).bindings]
      by_cases same : other = name
      · subst same
        obtain rfl : old = bound := Option.some.inj (known.symm.trans knownOther)
        exact ⟨value, Bindings.get?_set_self known value,
          ((Ty.agrees_iff_family plainOld allowed).mp agrees).symm⟩
      · exact ⟨bound, (Bindings.get?_set_of_ne same value).trans knownOther, rfl⟩

/-! ## Input -/

/-- Whether an event is the warning about a mismatch. -/
def Event.isMismatch : Event → Bool
  | mismatched _ => true
  | _ => false

/-- Whether a computation stops because of a mismatch under strict types. -/
def Stop.isMismatch : Stop → Bool
  | failure (.mismatch _ _ _) => true
  | _ => false

/-- The names and their types are the same on both machines, and so are the warnings, recorded
and in the trace. -/
structure Machine.Undisturbed (machine after : Machine) : Prop where
  types : after.env.bindings.types = machine.env.bindings.types
  mismatches : after.env.mismatches = machine.env.mismatches
  trace : after.console.trace.filter Event.isMismatch =
    machine.console.trace.filter Event.isMismatch

namespace Machine.Undisturbed

variable {machine middle : Machine}

theorem refl (machine : Machine) : machine.Undisturbed machine := ⟨rfl, rfl, rfl⟩

theorem move (undisturbed : machine.Undisturbed middle) (cursor : Cursor) :
    machine.Undisturbed { middle with cursor } :=
  ⟨undisturbed.types, undisturbed.mismatches, undisturbed.trace⟩

theorem note (undisturbed : machine.Undisturbed middle) {event : Event}
    (other : event.isMismatch = false) :
    machine.Undisturbed { middle with console := middle.console.note event } := by
  refine ⟨undisturbed.types, undisturbed.mismatches, ?_⟩
  rw [← undisturbed.trace]
  simp only [Console.note]
  split
  · simp [other]
  · rfl

/-- A value of the type that the variable has disturbs nothing. -/
theorem assign (undisturbed : machine.Undisturbed middle) {name : Text} {old value : Value}
    (known : middle.env.bindings.get? name = some old) (sameType : value.ty = old.ty) :
    ∃ after, Exec.assign name value middle = .ok () after ∧ machine.Undisturbed after := by
  have agrees : old.ty.agrees value.ty = true := by
    rw [sameType, Ty.agrees, BEq.rfl]
    rfl
  have assigned : middle.env.assign name value =
      .ok ({ middle.env with bindings := middle.env.bindings.set name value }, none) := by
    simp only [Environment.assign, known, agrees, ↓reduceIte]
  refine ⟨_, Exec.assign_of_agreeing assigned, ?_, undisturbed.mismatches, undisturbed.trace⟩
  exact (Bindings.types_set known sameType).trans undisturbed.types

end Machine.Undisturbed

namespace Plan

variable {α β : Type} {machine : Machine} {before : Machine → Prop} {after : α → Machine → Prop}
  {last : β → Machine → Prop}

/-- A plan that disturbs nothing on the way from `machine`, and that no mismatch stops. What
else is known before it and after it is handed on as in a contract. -/
def LeavesTypes (machine : Machine) (plan : Plan α) (before : Machine → Prop)
    (after : α → Machine → Prop) : Prop :=
  plan.Meets (fun middle => machine.Undisturbed middle ∧ before middle) (fun _ => True)
    (fun result final => machine.Undisturbed final ∧ after result final)
    (fun reason final => machine.Undisturbed final ∧ reason.isMismatch = false)

namespace LeavesTypes

theorem bind {plan : Plan α} {next : α → Plan β}
    (leaves : plan.LeavesTypes machine before after)
    (leavesNext : ∀ result, (next result).LeavesTypes machine (after result) last) :
    (plan >>= next).LeavesTypes machine before last :=
  Meets.bind leaves leavesNext

theorem stop {reason : Stop} (usual : reason.isMismatch = false) :
    (stop reason : Plan α).LeavesTypes machine before after :=
  Meets.stop fun _ holds => ⟨holds.1, usual⟩

/-- A deed that always succeeds. -/
theorem perform {deed : Deed} {after : deed.Result → Machine → Prop}
    (succeeds : ∀ middle, machine.Undisturbed middle → before middle →
      ∃ result final, deed.perform middle = .ok result final ∧ machine.Undisturbed final ∧
        after result final) :
    (perform deed).LeavesTypes machine before after := by
  refine Meets.perform (fun _ _ => trivial) ?_ ?_
  · rintro middle ⟨undisturbed, known⟩ result final performed
    obtain ⟨result, final, ended, kept⟩ := succeeds middle undisturbed known
    cases performed.symm.trans ended
    exact kept
  · rintro middle ⟨undisturbed, known⟩ reason final performed
    obtain ⟨result, final, ended, -⟩ := succeeds middle undisturbed known
    cases performed.symm.trans ended

/-- A deed that moves the cursor at most. -/
theorem move {deed : Deed} (isMove : deed.isMove)
    (usual : ∀ {middle reason final}, deed.perform middle = .error reason final →
      reason.isMismatch = false) :
    (Plan.perform deed).LeavesTypes machine (fun _ => True) fun _ _ => True := by
  refine Meets.perform (fun _ _ => trivial) ?_ ?_
  · rintro middle ⟨undisturbed, -⟩ result final performed
    obtain ⟨cursor, rfl⟩ := (Deed.perform_moves isMove).succeeds performed
    exact ⟨undisturbed.move cursor, trivial⟩
  · rintro middle ⟨undisturbed, -⟩ reason final performed
    obtain ⟨cursor, rfl⟩ := (Deed.perform_moves isMove).stops performed
    exact ⟨undisturbed.move cursor, usual performed⟩

theorem pass : (Plan.perform .pass).LeavesTypes machine (fun _ => True) fun _ _ => True := by
  refine move rfl fun stops => ?_
  rw [(Exec.pass_eq_error stops).1]
  rfl

theorem expect (kind : Token.Kind) (context : Text) :
    (Plan.perform (.expect kind context)).LeavesTypes machine (fun _ => True)
      fun _ _ => True := by
  refine move rfl fun stops => ?_
  rw [(Exec.expect_eq_error stops).1]
  rfl

theorem expectName (context : Text) :
    (Plan.perform (.expectName context)).LeavesTypes machine (fun _ => True)
      fun _ _ => True := by
  refine move rfl fun stops => ?_
  rw [(Exec.expectName_eq_error stops).1]
  rfl

/-- An input line is read for a variable of some type, and gives a value of that type. -/
theorem inputStatement (machine : Machine) :
    inputStatement.LeavesTypes machine (fun _ => True) fun _ _ => True := by
  refine pass.bind fun _ => (expect _ _).bind fun _ => (expectName _).bind fun name =>
    (expect _ _).bind fun _ => ?_
  have valueOf : (Plan.perform (.valueOf name)).LeavesTypes machine (fun _ => True)
      fun current middle => middle.env.bindings.get? name = current :=
    perform fun middle undisturbed _ => ⟨_, middle, rfl, undisturbed, rfl⟩
  refine valueOf.bind fun current => ?_
  cases current with
  | none => exact stop rfl
  | some current =>
      have read : (Plan.perform .read).LeavesTypes machine
          (fun middle => middle.env.bindings.get? name = some current)
          fun _ middle => middle.env.bindings.get? name = some current :=
        perform fun middle undisturbed isCurrent =>
          ⟨_, _, rfl, ⟨undisturbed.types, undisturbed.mismatches, undisturbed.trace⟩, isCurrent⟩
      refine read.bind fun line => ?_
      cases converted : Value.ofInput current.ty line with
      | error error => exact stop rfl
      | ok value =>
          have assign : (Plan.perform (.assign name value)).LeavesTypes machine
              (fun middle => middle.env.bindings.get? name = some current) fun _ _ => True := by
            refine perform fun middle undisturbed isCurrent => ?_
            obtain ⟨final, assigned, kept⟩ :=
              undisturbed.assign isCurrent (Value.ty_ofInput converted)
            exact ⟨(), final, assigned, kept, trivial⟩
          exact assign.bind fun _ => perform fun middle undisturbed _ =>
            ⟨(), _, rfl, undisturbed.note rfl, trivial⟩

end LeavesTypes

end Plan

/-- **Input leaves the types as they are**, whether it succeeds or stops, and causes no warning
and no mismatch. -/
theorem Exec.inputStatement_undisturbed (machine : Machine) :
    (∀ after, inputStatement machine = .ok () after → machine.Undisturbed after) ∧
      ∀ reason after, inputStatement machine = .error reason after →
        machine.Undisturbed after ∧ reason.isMismatch = false := by
  have leaves := Plan.LeavesTypes.inputStatement machine
  have start : machine.Undisturbed machine ∧ True := ⟨.refl machine, trivial⟩
  rw [← Plan.run_inputStatement]
  exact ⟨fun after succeeds => (leaves.succeeds machine start () after succeeds).1,
    leaves.stops machine start⟩

/-! ## Whole runs -/

namespace Plan

variable {α : Type}

/-- The machine of every moment is on the timeline. -/
theorem mem_timeline {plan : Plan α} {machine : Machine} {moment : Moment}
    (member : moment ∈ plan.history machine) :
    moment.machine ∈ plan.timeline machine :=
  List.mem_append_left _ (List.mem_map_of_mem member)

/-- Whether types are strict does not change. -/
theorem timeline_strict (plan : Plan α) (machine : Machine) :
    ∀ later ∈ plan.timeline machine, later.env.strict = machine.env.strict :=
  (timeline_pairwise (fun earlier later => later.env.strict = earlier.env.strict) (fun _ => rfl)
    (fun first second => second.trans first) plan machine fun moment _ => moment.next_strict).2

/-- Names are only added, at the end. -/
theorem timeline_names (plan : Plan α) (machine : Machine) :
    (plan.timeline machine).Pairwise fun earlier later =>
      earlier.env.bindings.names <+: later.env.bindings.names := by
  refine (timeline_pairwise _ (fun _ => List.prefix_rfl)
    (fun first second => first.trans second) plan machine fun moment _ => ?_).1
  rw [moment.next_names]
  exact List.prefix_append _ _

theorem timeline_names_nodup (plan : Plan α) {machine : Machine}
    (distinct : machine.env.bindings.names.Nodup) :
    ∀ later ∈ plan.timeline machine, later.env.bindings.names.Nodup := by
  intro later member
  have kept := timeline_pairwise
    (fun earlier later => earlier.env.bindings.names.Nodup →
      later.env.bindings.names.Nodup) (fun _ => id)
    (fun first second distinct => second (first distinct)) plan machine fun _ _ =>
      Moment.next_names_nodup
  exact kept.2 later member distinct

/-- The names in the end are those that were declared on the way, in order. -/
theorem final_names (plan : Plan α) (machine : Machine) :
    (plan.final machine).env.bindings.names =
      machine.env.bindings.names ++ (plan.history machine).filterMap Moment.declared? :=
  final_ledger (fun machine => machine.env.bindings.names) Moment.declared? plan machine
    fun moment _ => moment.next_names

end Plan

namespace Program

variable {tokens : List Token}

/-- Every moment of a run of a plain program is plain. -/
theorem history_plain (literals : PlainLiterals tokens) (steps : Nat) (strict : Bool)
    (console : Console) :
    ∀ moment ∈ history steps strict tokens console,
      moment.machine.Plain tokens ∧ moment.deed.Allowed tokens ∧
      moment.machine.env.strict = strict := by
  intro moment member
  obtain ⟨plain, allowed⟩ :=
    (Plan.statements_keeps literals steps).moments _ (initial_plain _ _ _) moment member
  exact ⟨plain, allowed, Plan.timeline_strict _ _ _ (Plan.mem_timeline member)⟩

/-- In a lenient run of a plain program the warnings are those that were due, in order. -/
theorem final_warnings (literals : PlainLiterals tokens) (steps : Nat) (console : Console) :
    (final steps false tokens console).env.warnings =
      (history steps false tokens console).filterMap Moment.warning? := by
  refine Plan.final_ledger (fun machine => machine.env.warnings) Moment.warning? _ _
    fun moment member => ?_
  obtain ⟨plain, allowed, lenient⟩ := history_plain literals steps false console moment member
  exact moment.next_warnings plain allowed lenient

/-- In a strict run of a plain program every variable stays in its family. -/
theorem timeline_keepsFamilies (literals : PlainLiterals tokens) (steps : Nat)
    (console : Console) :
    (timeline steps true tokens console).Pairwise fun earlier later =>
      earlier.env.KeepsFamilies later.env := by
  refine (Plan.timeline_pairwise _ (fun machine => .refl machine.env)
    (fun first second => first.trans second) _ _ fun moment member => ?_).1
  obtain ⟨plain, allowed, strict⟩ := history_plain literals steps true console moment member
  exact moment.next_keepsFamilies plain allowed strict

/-- In a strict run of a plain program every machine after a declaration has the variable, in
the family of the value that it was declared with. -/
theorem family_of_declaration (literals : PlainLiterals tokens) {steps : Nat}
    {console : Console} {earlier later : List Moment} {name : Text} {value : Value}
    {machine : Machine}
    (parts : history steps true tokens console = earlier ++ ⟨.declare name value, machine⟩ ::
      later) (fresh : machine.env.declares name = false) :
    ∀ visited ∈ later.map Moment.machine ++ [final steps true tokens console], ∃ current family,
      visited.env.bindings.get? name = some current ∧ value.ty.family? = some family ∧
        current.ty.family? = some family := by
  have member : ⟨.declare name value, machine⟩ ∈ history steps true tokens console := by
    rw [parts]
    exact List.mem_append_right _ List.mem_cons_self
  obtain ⟨-, plain, -⟩ := history_plain literals steps true console _ member
  obtain ⟨family, isFamily⟩ := Ty.exists_family plain
  obtain ⟨more, continues, times⟩ := Plan.timeline_of_history parts
  have bound : (Moment.mk (.declare name value) machine).next.env.bindings.get? name =
      some value := by
    have unknown : machine.env.bindings.get? name = none :=
      Option.isNone_iff_eq_none.mp (Option.isSome_eq_false_iff.mp fresh)
    have change := (Moment.mk (.declare name value) machine).change
    generalize (Moment.mk (.declare name value) machine).next.env = after at change
    cases change with
    | kept other => exact absurd rfl (other name value).1
    | redeclared known => exact absurd (known.symm.trans fresh) (by decide)
    | declared => simp [Bindings.get?_append_of_none unknown, Bindings.get?]
  have kept := timeline_keepsFamilies literals steps console
  rw [timeline, times, List.pairwise_append, List.pairwise_cons, List.pairwise_cons] at kept
  intro visited visits
  have keepsFamilies : (Moment.mk (.declare name value) machine).next.env.KeepsFamilies
    visited.env := by
    rw [final, continues] at visits
    rcases List.mem_cons.mp visits with rfl | isLater
    · exact .refl _
    · exact kept.2.1.2.1 visited isLater
  obtain ⟨current, isCurrent, sameFamily⟩ := keepsFamilies name value bound
  exact ⟨current, family, isCurrent, isFamily, sameFamily.trans isFamily⟩

/-- **The discipline of variables.** In every run, names are only added, at the end of the list
of names; no name is lost, none is there twice, and each declaration that is carried out adds
the next one. Input changes no type and causes neither a warning nor a mismatch. In a strict run
of a source text every variable stays in the family of types that it was declared in. In a
lenient run of a source text the warnings are, in order, those of the assignments across
families. -/
theorem variables_disciplined (steps : Nat) (console : Console) :
    (∀ strict tokens,
      (timeline steps strict tokens console).Pairwise (fun earlier later =>
        earlier.env.bindings.names <+: later.env.bindings.names ∧
          ∀ name, earlier.env.declares name → later.env.declares name) ∧
      (∀ machine ∈ timeline steps strict tokens console, machine.env.bindings.names.Nodup) ∧
      (final steps strict tokens console).env.bindings.names =
        (history steps strict tokens console).filterMap Moment.declared? ∧
      ((history steps strict tokens console).filterMap Moment.declared?).Nodup) ∧
    (∀ machine : Machine,
      (∀ after, Exec.inputStatement machine = .ok () after → machine.Undisturbed after) ∧
      ∀ reason after, Exec.inputStatement machine = .error reason after →
        machine.Undisturbed after ∧ reason.isMismatch = false) ∧
    (∀ source earlier name value machine later,
      history steps true (Token.ofSource source) console =
        earlier ++ ⟨.declare name value, machine⟩ :: later →
      machine.env.declares name = false →
      ∀ visited ∈ later.map Moment.machine ++ [final steps true (Token.ofSource source) console],
        ∃ current family, visited.env.bindings.get? name = some current ∧
          value.ty.family? = some family ∧ current.ty.family? = some family) ∧
    ∀ source,
      (final steps false (Token.ofSource source) console).env.warnings =
        (history steps false (Token.ofSource source) console).filterMap Moment.warning? ∧
      ∀ report after,
        run steps false (Token.ofSource source) console = (.reported report, after) →
        report.warnings =
          (history steps false (Token.ofSource source) console).filterMap Moment.warning? := by
  refine ⟨fun strict tokens => ?_, Exec.inputStatement_undisturbed, ?_, fun source => ?_⟩
  · have distinct : ∀ machine ∈ timeline steps strict tokens console,
        machine.env.bindings.names.Nodup :=
      Plan.timeline_names_nodup (Plan.statements steps) List.nodup_nil
    have declared : (final steps strict tokens console).env.bindings.names =
        (history steps strict tokens console).filterMap Moment.declared? :=
      Plan.final_names (Plan.statements steps) (initial strict tokens console)
    have grows : (timeline steps strict tokens console).Pairwise fun earlier later =>
        earlier.env.bindings.names <+: later.env.bindings.names ∧
          ∀ name, earlier.env.declares name → later.env.declares name := by
      refine (Plan.timeline_names _ _).imp fun grows => ⟨grows, fun name known => ?_⟩
      rw [Environment.declares_iff] at known ⊢
      exact grows.subset known
    refine ⟨grows, distinct, declared, ?_⟩
    rw [← declared]
    exact distinct _ (List.mem_append_right _ List.mem_cons_self)
  · intro source earlier name value machine later parts fresh
    exact family_of_declaration (Token.ofSource_plainLiterals source) parts fresh
  · have due := final_warnings (Token.ofSource_plainLiterals source) steps console
    exact ⟨due, fun report after reported => (warnings_of_reported reported).trans due⟩

/-- A source text that declares a number, assigns it a double and then a text. -/
def retypingSource : String :=
  "^_^ keloğlan x _ 1 ^_^\n^_^ x _ 2.5 ^_^\n^_^ x _ \"a\" ^_^"

/-- A strict machine before a statement that asks for a number. -/
def askingMachine : Machine :=
  { cursor := .start (Token.ofSource "marsupilami ) x (")
    env := { strict := true, bindings := [("x", .int 1)] }
    console := { feed := ⟨["7"], 0⟩ } }

/-- Under strict types the text is refused and the variable stays numeric, as it was declared;
otherwise the text is assigned with a warning, and the double without one. Asking for a number
gives a number. -/
theorem variables_disciplined_retyping :
    (∃ current family,
      (final 8 true (Token.ofSource retypingSource) {}).env.bindings.get? "x" = some current ∧
      (Value.int 1).ty.family? = some family ∧ current.ty.family? = some family) ∧
    (final 8 true (Token.ofSource retypingSource) {}).env.bindings =
      ([("x", .float 2.5)] : Bindings) ∧
    (history 8 false (Token.ofSource retypingSource) {}).filterMap Moment.warning? =
      (["type mismatch for variable x: current FLOAT, assigned STRING"] : List Text) ∧
    (∀ machine ∈ timeline 8 false (Token.ofSource retypingSource) {},
      machine.env.bindings.names.Nodup) ∧
    ∃ after, Exec.inputStatement askingMachine = .ok () after ∧
      after.env.bindings = ([("x", .int 7)] : Bindings) ∧
      askingMachine.Undisturbed after := by
  obtain ⟨names, input, strict, lenient⟩ := variables_disciplined 8 {}
  have declares : ∃ moment ∈ history 8 true (Token.ofSource retypingSource) {},
      moment.deed = .declare "x" (.int 1) ∧ moment.machine.env.declares "x" = false := by
    decide +kernel
  have asked : ∃ after, Exec.inputStatement askingMachine = .ok () after ∧
      after.env.bindings = ([("x", .int 7)] : Bindings) := by
    have ended : (match Exec.inputStatement askingMachine with
        | .ok _ after => after.env.bindings
        | .error _ _ => []) = ([("x", .int 7)] : Bindings) := by
      decide +kernel
    cases ran : Exec.inputStatement askingMachine with
    | ok result after =>
        rw [ran] at ended
        exact ⟨after, rfl, ended⟩
    | error reason after =>
        rw [ran] at ended
        cases ended
  have warned : (final 8 false (Token.ofSource retypingSource) {}).env.warnings =
      (["type mismatch for variable x: current FLOAT, assigned STRING"] : List Text) := by
    decide +kernel
  obtain ⟨⟨deed, machine⟩, member, rfl, fresh⟩ := declares
  obtain ⟨earlier, later, parts⟩ := List.append_of_mem member
  obtain ⟨after, succeeds, bindings⟩ := asked
  have last := List.mem_append_right (later.map Moment.machine)
    (List.mem_singleton_self (final 8 true (Token.ofSource retypingSource) {}))
  refine ⟨strict retypingSource earlier "x" _ machine later parts fresh _
    last, by
    decide +kernel, ?_, ?_, after, succeeds, bindings, (input askingMachine).1 after succeeds⟩
  · rw [← (lenient retypingSource).1, warned]
  · exact (names false (Token.ofSource retypingSource)).2.1

end Program

end ToonScript
