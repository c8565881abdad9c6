import ToonScript.Proofs.Plan

/-!
# Timelines

The timeline of a plan lists the machines that carrying it out comes to: the one before each
deed, in order, and the last one. What a law says of a run over time is a law about its
timeline.

Such a law follows from what a single deed does, and `Deed.Effect` tells that once and for all:
most deeds move the cursor at most, and each of the others changes one part of the machine. A
relation that every deed of a history keeps holds between any two machines of the timeline
(`Plan.timeline_pairwise`), and what every deed adds to a list is what the list holds in the end
(`Plan.final_ledger`).
-/

set_option autoImplicit false

namespace ToonScript

/-! ## What a deed does -/

/-- The deeds that move the cursor at most. -/
def Deed.isMove : Deed → Bool
  | declare _ _ | assign _ _ | read | write _ | note _ | giveBack _ | breakOff | goOn
  | settle => false
  | _ => true

/-- What a deed does to a machine, whether it succeeds or stops. -/
inductive Deed.Effect (machine : Machine) : Deed → Machine → Prop where
  | moved {deed : Deed} (isMove : deed.isMove) (cursor : Cursor) :
      Effect machine deed { machine with cursor }
  | declared {name : Text} {value : Value} (fresh : machine.env.declares name = false) :
      Effect machine (declare name value)
        { machine with
          env := { machine.env with bindings := machine.env.bindings ++ [(name, value)] } }
  | redeclared {name : Text} {value : Value} (known : machine.env.declares name = true) :
      Effect machine (declare name value) machine
  | assigned {name : Text} {value : Value} {env : Environment}
      (agreed : machine.env.assign name value = .ok (env, none)) :
      Effect machine (assign name value) { machine with env }
  | mismatched {name : Text} {value : Value} {env : Environment} {mismatch : Mismatch}
      (differed : machine.env.assign name value = .ok (env, some mismatch)) :
      Effect machine (assign name value)
        { machine with env, console := machine.console.note (.mismatched mismatch) }
  | refused {name : Text} {value : Value} {cause : Failure}
      (refused : machine.env.assign name value = .error cause) :
      Effect machine (assign name value) machine
  | took : Effect machine read { machine with console := machine.console.read.2 }
  | wrote {value : Value} :
      Effect machine (write value) { machine with console := machine.console.write value.text }
  | noted {event : Event} :
      Effect machine (note event) { machine with console := machine.console.note event }
  | returned {value : Value} :
      Effect machine (giveBack value)
        { machine with
          returnValue := some value, flags := { machine.flags with returned := true } }
  | broke :
      Effect machine breakOff { machine with flags := { machine.flags with broke := true } }
  | continued :
      Effect machine goOn { machine with flags := { machine.flags with continued := true } }
  | settled : Effect machine settle { machine with flags := machine.flags.settled }

/-- The machine after the deed of a moment, whether the deed succeeds or stops. -/
def Moment.next (moment : Moment) : Machine := (Plan.perform moment.deed).final moment.machine

theorem Moment.next_of_ok {deed : Deed} {machine after : Machine} {result : deed.Result}
    (performed : deed.perform machine = .ok result after) :
    (Moment.mk deed machine).next = after :=
  Plan.final_perform_of_ok performed

theorem Moment.next_of_error {deed : Deed} {machine after : Machine} {reason : Stop}
    (performed : deed.perform machine = .error reason after) :
    (Moment.mk deed machine).next = after :=
  Plan.final_perform_of_error performed

namespace Exec

variable {α β : Type}

/-- A computation that changes nothing but the cursor, whether it succeeds or stops. -/
structure Moves (computation : Exec α) : Prop where
  succeeds : ∀ {machine a after}, computation machine = .ok a after →
    ∃ cursor, after = { machine with cursor }
  stops : ∀ {machine reason after}, computation machine = .error reason after →
    ∃ cursor, after = { machine with cursor }

namespace Moves

theorem bind {first : Exec α} {next : α → Exec β} (moves : Moves first)
    (movesNext : ∀ a, Moves (next a)) :
    Moves (first >>= next) where
  succeeds succeeds := by
    obtain ⟨a, middle, begun, ended⟩ := bind_eq_ok.mp succeeds
    obtain ⟨_, rfl⟩ := moves.succeeds begun
    obtain ⟨cursor, rfl⟩ := (movesNext a).succeeds ended
    exact ⟨cursor, rfl⟩
  stops stops := by
    rcases bind_eq_error.mp stops with failed | ⟨a, middle, begun, ended⟩
    · exact moves.stops failed
    · obtain ⟨_, rfl⟩ := moves.succeeds begun
      obtain ⟨cursor, rfl⟩ := (movesNext a).stops ended
      exact ⟨cursor, rfl⟩

theorem pure (a : α) : Moves (pure a : Exec α) where
  succeeds succeeds := by
    cases succeeds
    exact ⟨_, rfl⟩
  stops stops := by cases stops

theorem scan (computation : Scan α) : Moves (scan computation) where
  succeeds succeeds := by
    obtain ⟨cursor, -, rfl⟩ := scan_eq_ok.mp succeeds
    exact ⟨cursor, rfl⟩
  stops stops := by
    obtain ⟨cursor, -, rfl⟩ := scan_eq_error.mp stops
    exact ⟨cursor, rfl⟩

/-- A computation that depends on the machine. -/
theorem get {next : Machine → Exec α} (moves : ∀ machine, Moves (next machine)) :
    Moves (get >>= next) where
  succeeds succeeds := (moves _).succeeds succeeds
  stops stops := (moves _).stops stops

theorem moveTo (cursor : Cursor) : Moves (moveTo cursor) where
  succeeds succeeds := by
    cases succeeds
    exact ⟨cursor, rfl⟩
  stops stops := by cases stops

theorem lookup (name : Text) : Moves (lookup name) := by
  refine get fun machine => ?_
  cases machine.env.lookup name with
  | ok value => exact pure value
  | error cause =>
      constructor
      · intro machine a after succeeds
        cases succeeds
      · intro machine reason after stops
        cases stops
        exact ⟨_, rfl⟩

theorem combine (name : Text) (operand : Value) (assignment : Assignment) :
    Moves (combine name operand assignment) := by
  cases assignment with
  | plain => exact pure operand
  | combined op => exact (lookup name).bind fun _ => scan _

end Moves

end Exec

theorem Deed.perform_moves {deed : Deed} (isMove : deed.isMove) : Exec.Moves deed.perform := by
  cases deed with
  | declare | assign | read | write | note | giveBack | breakOff | goOn | settle => cases isMove
  | beginStatement | enterBlock => exact .pure _
  | pass | expect | expectName => exact (Exec.Moves.scan _).bind fun _ => .pure _
  | skipBlock | closing => exact .scan _
  | moveTo cursor => exact .moveTo cursor
  | place | peek | valueOf | flags => exact .get fun _ => .pure _
  | evaluate =>
      exact .get fun machine => .scan (Expression.evaluate machine.console.groupLimit
        machine.env.bindings)
  | combine name operand assignment => exact .combine name operand assignment

/-- **Every deed has one of the effects.** -/
theorem Moment.effect (moment : Moment) : moment.deed.Effect moment.machine moment.next := by
  obtain ⟨deed, machine⟩ := moment
  by_cases isMove : deed.isMove
  · cases performed : deed.perform machine with
    | ok result after =>
        obtain ⟨cursor, rfl⟩ := (Deed.perform_moves isMove).succeeds performed
        rw [next_of_ok performed]
        exact .moved isMove cursor
    | error reason after =>
        obtain ⟨cursor, rfl⟩ := (Deed.perform_moves isMove).stops performed
        rw [next_of_error performed]
        exact .moved isMove cursor
  · cases deed with
    | declare name value =>
        cases known : machine.env.declares name with
        | true =>
            have performed : (Deed.declare name value).perform machine = _ :=
              Exec.declare_of_known known
            rw [next_of_error performed]
            exact .redeclared known
        | false =>
            have performed : (Deed.declare name value).perform machine = _ :=
              Exec.declare_of_fresh known
            rw [next_of_ok performed]
            exact .declared known
    | assign name value =>
        cases assigned : machine.env.assign name value with
        | error cause =>
            have performed : (Deed.assign name value).perform machine =
                .error (.failure cause) machine :=
              Exec.assign_of_error assigned
            rw [next_of_error performed]
            exact .refused assigned
        | ok outcome =>
            obtain ⟨env, mismatch⟩ := outcome
            cases mismatch with
            | none =>
                have performed : (Deed.assign name value).perform machine =
                    .ok () { machine with env } :=
                  Exec.assign_of_agreeing assigned
                rw [next_of_ok performed]
                exact .assigned assigned
            | some mismatch =>
                have performed : (Deed.assign name value).perform machine =
                    .ok () { machine with
                      env, console := machine.console.note (.mismatched mismatch) } :=
                  Exec.assign_of_mismatch assigned
                rw [next_of_ok performed]
                exact .mismatched assigned
    | read => exact .took
    | write value => exact .wrote
    | note event => exact .noted
    | giveBack value => exact .returned
    | breakOff => exact .broke
    | goOn => exact .continued
    | settle => exact .settled
    | _ => exact absurd rfl isMove

/-! ## The machines of a plan, in order -/

namespace Plan

variable {α : Type}

/-- The machines that carrying a plan out comes to: before each deed, and at the end. -/
def timeline (plan : Plan α) (machine : Machine) : List Machine :=
  (plan.history machine).map Moment.machine ++ [plan.final machine]

theorem timeline_act_of_ok {deed : Deed} {next : deed.Result → Plan α} {machine after : Machine}
    {result : deed.Result} (performed : deed.perform machine = .ok result after) :
    (act deed next).timeline machine = machine :: (next result).timeline after := by
  rw [timeline, history_act_of_ok performed, final_act_of_ok performed, List.map_cons,
    List.cons_append, timeline]

theorem timeline_act_of_error {deed : Deed} {next : deed.Result → Plan α}
    {machine after : Machine} {reason : Stop}
    (performed : deed.perform machine = .error reason after) :
    (act deed next).timeline machine = [machine, after] := by
  rw [timeline, history_act_of_error performed, final_act_of_error performed,
    List.map_cons, List.map_nil, List.cons_append, List.nil_append]

/-- A timeline starts with the machine that the plan starts with. -/
theorem timeline_eq_cons (plan : Plan α) (machine : Machine) :
    ∃ more, plan.timeline machine = machine :: more := by
  cases plan with
  | done result => exact ⟨[], rfl⟩
  | stop reason => exact ⟨[], rfl⟩
  | act deed next =>
      cases performed : deed.perform machine with
      | ok result after => exact ⟨_, timeline_act_of_ok performed⟩
      | error reason after => exact ⟨_, timeline_act_of_error performed⟩

/-- **What every deed keeps, the timeline keeps**: from any machine of it to any later one. -/
theorem timeline_pairwise (kept : Machine → Machine → Prop)
    (same : ∀ machine, kept machine machine)
    (joined : ∀ {start middle after}, kept start middle → kept middle after → kept start after)
    (plan : Plan α) (machine : Machine)
    (deeds : ∀ moment ∈ plan.history machine, kept moment.machine moment.next) :
    (plan.timeline machine).Pairwise kept ∧ ∀ later ∈ plan.timeline machine,
      kept machine later := by
  have only : ∀ start : Machine, [start].Pairwise kept ∧
      ∀ later ∈ [start], kept start later := by
    intro start
    refine ⟨List.pairwise_singleton _ _, fun later member => ?_⟩
    rw [List.mem_singleton.mp member]
    exact same start
  induction plan generalizing machine with
  | done result => exact only machine
  | stop reason => exact only machine
  | act deed next ih =>
      cases performed : deed.perform machine with
      | ok result after =>
          rw [history_act_of_ok performed] at deeds
          rw [timeline_act_of_ok performed]
          have first := deeds _ List.mem_cons_self
          rw [Moment.next_of_ok performed] at first
          obtain ⟨pairwise, later⟩ :=
            ih result after fun moment member => deeds _ (List.mem_cons_of_mem _ member)
          have fromStart : ∀ other ∈ (next result).timeline after, kept machine other :=
            fun other member => joined first (later other member)
          refine ⟨List.pairwise_cons.mpr ⟨fromStart, pairwise⟩, fun other member => ?_⟩
          rcases List.mem_cons.mp member with rfl | isLater
          · exact same _
          · exact fromStart other isLater
      | error reason after =>
          rw [history_act_of_error performed] at deeds
          rw [timeline_act_of_error performed]
          have first := deeds _ List.mem_cons_self
          rw [Moment.next_of_error performed] at first
          refine ⟨List.pairwise_pair.mpr first, fun other member => ?_⟩
          rcases List.mem_cons.mp member with rfl | isLast
          · exact same _
          · rw [List.mem_singleton.mp isLast]
            exact first

/-- **What every deed adds to a list is what the list holds in the end.** -/
theorem final_ledger {β : Type} (ledger : Machine → List β) (entry : Moment → Option β)
    (plan : Plan α) (machine : Machine)
    (deeds : ∀ moment ∈ plan.history machine, ledger moment.next =
      ledger moment.machine ++ (entry moment).toList) :
    ledger (plan.final machine) = ledger machine ++ (plan.history machine).filterMap entry := by
  induction plan generalizing machine with
  | done result => exact (List.append_nil _).symm
  | stop reason => exact (List.append_nil _).symm
  | act deed next ih =>
      cases performed : deed.perform machine with
      | ok result after =>
          rw [history_act_of_ok performed] at deeds ⊢
          have first := deeds _ List.mem_cons_self
          rw [Moment.next_of_ok performed] at first
          rw [final_act_of_ok performed,
            ih result after fun moment member => deeds _ (List.mem_cons_of_mem _ member), first,
            List.append_assoc]
          cases added : entry ⟨deed, machine⟩ <;> simp [added]
      | error reason after =>
          rw [history_act_of_error performed] at deeds ⊢
          have first := deeds _ List.mem_cons_self
          rw [Moment.next_of_error performed] at first
          rw [final_act_of_error performed, first]
          cases added : entry ⟨deed, machine⟩ <;> simp [added]

/-- Right after a moment the timeline goes on with the machine after its deed. -/
theorem timeline_of_history {plan : Plan α} {machine : Machine} {earlier later : List Moment}
    {moment : Moment} (parts : plan.history machine = earlier ++ moment :: later) :
    ∃ more, later.map Moment.machine ++ [plan.final machine] = moment.next :: more ∧
      plan.timeline machine = earlier.map Moment.machine ++ moment.machine ::
        moment.next :: more := by
  have next : ∃ more, later.map Moment.machine ++ [plan.final machine] =
      moment.next :: more := by
    induction plan generalizing machine earlier with
    | done result | stop reason => cases earlier <;> cases parts
    | act deed next ih =>
        cases performed : deed.perform machine with
        | ok result after =>
            rw [history_act_of_ok performed] at parts
            rw [final_act_of_ok performed]
            cases earlier with
            | nil =>
                obtain ⟨rfl, rfl⟩ := List.cons.inj parts
                rw [Moment.next_of_ok performed]
                exact timeline_eq_cons _ _
            | cons first earlier => exact ih result (List.cons.inj parts).2
        | error reason after =>
            rw [history_act_of_error performed] at parts
            rw [final_act_of_error performed]
            cases earlier with
            | nil =>
                obtain ⟨rfl, rfl⟩ := List.cons.inj parts
                rw [Moment.next_of_error performed]
                exact ⟨[], rfl⟩
            | cons first earlier => cases earlier <;> cases (List.cons.inj parts).2
  obtain ⟨more, continues⟩ := next
  refine ⟨more, continues, ?_⟩
  rw [timeline, parts, List.map_append, List.map_cons, List.append_assoc,
    List.cons_append, continues]

end Plan

namespace Program

/-- The machines that a run comes to, in order. -/
def timeline (steps : Nat) (strict : Bool) (tokens : List Token) (console : Console) :
    List Machine :=
  (Plan.statements steps).timeline (initial strict tokens console)

end Program

end ToonScript
