import ToonScript.Proofs.Discipline
import ToonScript.Proofs.Forward
import ToonScript.Proofs.Grammar
import ToonScript.Proofs.Route
import ToonScript.Proofs.Timeline

/-!
# Progress and termination

Every deed but one goes ahead: the machine moves the cursor back only to begin a turn of a loop.
So the cursor never leaves the program (`placed_lawful`), whatever the tokens are, and a
statement that succeeds has passed its two markers and at least one token between them
(`Exec.statement_advances`).

Where no token begins a loop, the tokens ahead pay for a run. A statement that comes to its end
costs three of the tokens passed, and the statements inside its blocks were paid with other ones
(`Plan.Spends`). Hence a run completes at most a third as many statements as there are tokens,
and a budget of two steps more than there are tokens is always enough
(`Plan.statements_thrifty`).
-/

set_option autoImplicit false

namespace ToonScript

open Token (Kind)

/-! ## Deeds go ahead -/

namespace Exec

variable {α β : Type}

/-- A computation that passes tokens, whether it succeeds or stops, and that the budget does not
stop. -/
structure GoesAhead (computation : Exec α) : Prop where
  succeeds : ∀ {machine a after}, computation machine = .ok a after →
    machine.cursor.Passes after.cursor
  stops : ∀ {machine reason after}, computation machine = .error reason after →
    reason ≠ .outOfSteps ∧ machine.cursor.Passes after.cursor

namespace GoesAhead

theorem bind {first : Exec α} {next : α → Exec β} (goes : GoesAhead first)
    (goesNext : ∀ a, GoesAhead (next a)) :
    GoesAhead (first >>= next) where
  succeeds succeeds := by
    obtain ⟨a, middle, begun, ended⟩ := bind_eq_ok.mp succeeds
    exact (goes.succeeds begun).trans ((goesNext a).succeeds ended)
  stops stops := by
    rcases bind_eq_error.mp stops with failed | ⟨a, middle, begun, ended⟩
    · exact goes.stops failed
    · obtain ⟨usual, passes⟩ := (goesNext a).stops ended
      exact ⟨usual, (goes.succeeds begun).trans passes⟩

/-- A computation that leaves the cursor where it is. -/
theorem still {computation : Exec α} (still : Still computation)
    (stops : ∀ {machine reason after}, computation machine = .error reason after →
      reason ≠ .outOfSteps ∧ machine = after) : GoesAhead computation where
  succeeds {machine _ after} succeeds := by
    rw [still _ _ _ succeeds]
    exact .refl _
  stops failed := by
    obtain ⟨usual, rfl⟩ := stops failed
    exact ⟨usual, .refl _⟩

theorem pure (a : α) : GoesAhead (pure a : Exec α) := still (.pure a) fun stops => by
  cases stops

theorem scan {computation : Scan α} (goes : computation.GoesAhead) :
    GoesAhead (scan computation) where
  succeeds succeeds := by
    obtain ⟨cursor, scanned, rfl⟩ := scan_eq_ok.mp succeeds
    exact goes.succeeds scanned
  stops stops := by
    obtain ⟨cursor, scanned, rfl⟩ := scan_eq_error.mp stops
    obtain ⟨usual, passes⟩ := goes.stops scanned
    refine ⟨?_, passes⟩
    rintro rfl
    cases usual

theorem skipBlock : GoesAhead skipBlock where
  succeeds succeeds := by
    obtain ⟨cursor, found, rfl⟩ := skipBlock_eq_ok.mp succeeds
    exact (Cursor.passes_of_closing? found).1
  stops stops := by
    obtain ⟨rfl, rfl⟩ := skipBlock_eq_error stops
    exact ⟨nofun, .refl _⟩

theorem declare (name : Text) (value : Value) : GoesAhead (declare name value) :=
  still (.declare name value) fun stops => by
    obtain ⟨rfl, unchanged⟩ := declare_eq_error stops
    exact ⟨nofun, unchanged⟩

theorem assign (name : Text) (value : Value) : GoesAhead (assign name value) :=
  still (.assign name value) fun stops => by
    obtain ⟨rfl | ⟨_, rfl⟩, unchanged⟩ := assign_eq_error stops
    · exact ⟨nofun, unchanged⟩
    · exact ⟨nofun, unchanged⟩

theorem combine (name : Text) (operand : Value) (assignment : Assignment) :
    GoesAhead (combine name operand assignment) :=
  still (.combine name operand assignment) fun stops => by
    obtain ⟨rfl | ⟨_, _, error, -, -, -, rfl⟩, unchanged⟩ := combine_eq_error stops
    · exact ⟨nofun, unchanged⟩
    · refine ⟨?_, unchanged⟩
      cases error <;> nofun

end GoesAhead

end Exec

namespace Deed

variable {deed : Deed} {machine after : Machine}

/-- The deeds that do not move the cursor to a place found earlier. -/
def isForward : Deed → Bool
  | moveTo _ => false
  | _ => true

/-- The deeds that pass a token where they succeed. -/
def isStep : Deed → Bool
  | pass | expect _ _ | expectName _ | skipBlock | evaluate => true
  | _ => false

/-- **Every deed but one goes ahead.** -/
theorem perform_goesAhead (forward : deed.isForward) : Exec.GoesAhead deed.perform := by
  have observes : ∀ {α : Type} (look : Machine → α), Exec.GoesAhead (do return look (← get)) :=
    fun look =>
      .still (Exec.Still.get.bind fun _ => .pure _) fun stops => by cases stops
  cases deed with
  | moveTo => cases forward
  | beginStatement | enterBlock => exact .pure _
  | pass => exact (Exec.GoesAhead.scan .advance).bind fun _ => .pure _
  | expect kind context =>
      exact (Exec.GoesAhead.scan (.expect kind context)).bind fun _ => .pure _
  | expectName context =>
      exact (Exec.GoesAhead.scan (.expect .identifier context)).bind fun _ => .pure _
  | skipBlock => exact .skipBlock
  | closing opener closer what => exact .scan (.closing opener closer what)
  | place | peek | valueOf | flags => exact observes _
  | evaluate =>
      refine ⟨fun {machine _ _} succeeds => ?_, fun {machine _ _} stops => ?_⟩
      · exact (Exec.GoesAhead.scan (Expression.evaluate_goesAhead machine.console.groupLimit
          machine.env.bindings)).succeeds succeeds
      · exact (Exec.GoesAhead.scan (Expression.evaluate_goesAhead machine.console.groupLimit
          machine.env.bindings)).stops stops
  | combine name operand assignment => exact .combine name operand assignment
  | declare name value => exact .declare name value
  | assign name value => exact .assign name value
  | read => exact .still .read fun stops => by cases stops
  | write value => exact .still (.write value.text) fun stops => by cases stops
  | note event => exact .still (.note event) fun stops => by cases stops
  | giveBack | breakOff | goOn | settle =>
      exact .still (.modify fun _ => rfl) fun stops => by cases stops

theorem perform_advances {result : deed.Result} (isStep : deed.isStep)
    (performed : deed.perform machine = .ok result after) :
    after.cursor.rest.length < machine.cursor.rest.length := by
  cases deed with
  | pass =>
      obtain ⟨token, rest, parts, rfl⟩ := Exec.pass_eq_ok.mp performed
      rw [parts]
      exact Nat.lt_succ_self _
  | expect =>
      obtain ⟨token, rest, parts, -, rfl⟩ := Exec.expect_eq_ok.mp performed
      rw [parts]
      exact Nat.lt_succ_self _
  | expectName =>
      obtain ⟨token, rest, parts, -, -, rfl⟩ := Exec.expectName_eq_ok.mp performed
      rw [parts]
      exact Nat.lt_succ_self _
  | skipBlock =>
      obtain ⟨cursor, found, rfl⟩ := Exec.skipBlock_eq_ok.mp performed
      exact (Cursor.passes_of_closing? found).2
  | evaluate =>
      obtain ⟨cursor, evaluated, rfl⟩ := Exec.evaluate_eq_ok.mp performed
      exact Expression.evaluate_advances _ _ _ _ _ evaluated
  | _ => cases isStep

end Deed

/-! ## The cursor stays in the program -/

namespace Cursor

variable {tokens : List Token}

theorem rest_length_atIndex (index : Nat) :
    (atIndex tokens index).rest.length = tokens.length - index :=
  List.length_drop

/-- A place between two tokens of a program, before the first one or behind the last one. -/
def IsPlace (tokens : List Token) (cursor : Cursor) : Prop :=
  ∃ index, index ≤ tokens.length ∧ cursor = .atIndex tokens index

/-- From an index the cursor gets to later indices only, and not beyond the end. -/
theorem Passes.atIndex {index : Nat} {after : Cursor} (within : index ≤ tokens.length)
    (passes : (atIndex tokens index).Passes after) :
    ∃ stop, index ≤ stop ∧ stop ≤ tokens.length ∧ after = .atIndex tokens stop := by
  obtain ⟨passed, parts, isLast⟩ := passes
  have place := past_atIndex passed index parts
  rw [← isLast] at place
  have length := congrArg List.length parts
  rw [rest_length_atIndex, List.length_append] at length
  exact ⟨index + passed.length, Nat.le_add_right _ _, by omega, place⟩

theorem Passes.isPlace {cursor after : Cursor} (passes : cursor.Passes after)
    (place : cursor.IsPlace tokens) :
    after.IsPlace tokens := by
  obtain ⟨index, within, rfl⟩ := place
  obtain ⟨stop, -, within', rfl⟩ := passes.atIndex within
  exact ⟨stop, within', rfl⟩

end Cursor

/-- Machines at places of a program, also where a run stops. -/
def placed (tokens : List Token) : Discipline where
  machine machine := machine.cursor.IsPlace tokens
  within machine := machine.cursor.IsPlace tokens
  place cursor := cursor.IsPlace tokens
  value _ := True
  word _ := True
  stopped _ machine := machine.cursor.IsPlace tokens

section Placed

variable {tokens : List Token} {deed : Deed} {machine after : Machine}

theorem Deed.perform_isPlace {result : deed.Result} (allowed : (placed tokens).Allows deed)
    (place : machine.cursor.IsPlace tokens)
    (performed : deed.perform machine = .ok result after) :
    after.cursor.IsPlace tokens := by
  cases deed with
  | moveTo cursor =>
      cases performed
      exact allowed
  | _ => exact ((perform_goesAhead rfl).succeeds performed).isPlace place

theorem Deed.perform_gives_place {result : deed.Result} (place : machine.cursor.IsPlace tokens)
    (performed : deed.perform machine = .ok result after) :
    (placed tokens).Gives deed result := by
  cases deed with
  | closing =>
      obtain ⟨found, -⟩ := Exec.closing_eq_ok.mp performed
      exact (Cursor.passes_of_closing? found).1.isPlace place
  | place =>
      cases performed
      exact place
  | valueOf | peek => exact fun _ _ => trivial
  | _ => exact trivial

theorem Deed.perform_stops_at_place {reason : Stop} (place : machine.cursor.IsPlace tokens)
    (performed : deed.perform machine = .error reason after) : after.cursor.IsPlace tokens := by
  cases deed with
  | moveTo => cases performed
  | _ => exact ((perform_goesAhead rfl).stops performed).2.isPlace place

/-- **The cursor never leaves the program.** -/
theorem placed_lawful (tokens : List Token) : (placed tokens).Lawful where
  words _ := trivial
  append _ _ := trivial
  machine_of_within := id
  opens {context _ _ _} place opened := by
    have performed : (Deed.expect .marker context).perform _ = _ := opened
    have allowed : (placed tokens).Allows (.expect .marker context) := trivial
    exact Deed.perform_isPlace allowed place performed
  unopened {context _ _ _} _ place failed := by
    have performed : (Deed.expect .marker context).perform _ = _ := failed
    exact Deed.perform_stops_at_place place performed
  succeeds allowed place performed :=
    ⟨Deed.perform_isPlace allowed place performed, Deed.perform_gives_place place performed⟩
  stops _ place performed := Deed.perform_stops_at_place place performed
  budget := id
  shape _ := id
  undeclared _ := id
  undeclaredInput _ := id
  condition := id
  entered _ _ := trivial
  refused _ _ place _ := place

end Placed

/-- What a contract promises of all the machines on the way, and at the end, holds of the
timeline. -/
theorem Plan.Meets.timeline {α : Type} {plan : Plan α} {before kept : Machine → Prop}
    {during : Moment → Prop} (meets : plan.Meets before during (fun _ => kept) fun _ => kept)
    (known : ∀ moment, during moment → kept moment.machine) {machine : Machine}
    (holds : before machine) :
    ∀ later ∈ plan.timeline machine, kept later := by
  intro later member
  rcases List.mem_append.mp member with onTheWay | atTheEnd
  · obtain ⟨moment, begun, rfl⟩ := List.mem_map.mp onTheWay
    exact known moment (meets.moments machine holds moment begun)
  · rw [List.mem_singleton.mp atTheEnd]
    cases carried : plan.run machine with
    | ok result final =>
        rw [final_of_ok carried]
        exact meets.succeeds machine holds result final carried
    | error reason final =>
        rw [final_of_error carried]
        exact meets.stops machine holds reason final carried

/-! ## Statements advance -/

/-- A statement is at least three tokens long: between its markers stands what is no marker. -/
theorem Route.statement_advances {cursor after : Cursor}
    (leads : Route.statement cursor after) :
    after.rest.length + 3 ≤ cursor.rest.length := by
  obtain ⟨opened, ⟨first, parts, -⟩, closing, leads, _, ⟨last, parts', -, isMarker⟩, rfl⟩ :=
    leads
  obtain ⟨span, between, -⟩ := Balances.body _ _ leads
  have some : span ≠ [] := by
    rintro rfl
    obtain ⟨next, ahead, along⟩ := leads
    rw [between, List.nil_append, parts', List.head?_cons] at ahead
    obtain rfl := Option.some.inj ahead
    rw [isMarker] at along
    obtain ⟨_, never, -⟩ := along
    exact never
  have positive := List.length_pos_iff.mpr some
  rw [parts, List.length_cons, between, List.length_append, parts', List.length_cons]
  omega

/-- **A statement that succeeds passes at least three tokens.** -/
theorem Exec.statement_advances {steps : Nat} {machine after : Machine} {u : Unit}
    (succeeds : statement steps machine = .ok u after) :
    after.cursor.rest.length + 3 ≤ machine.cursor.rest.length :=
  Route.statement_advances (statement_follows steps _ _ _ succeeds)

/-! ## Completed statements -/

/-- Whether a statement comes to its end with a deed: its second marker is passed. -/
def Moment.completes (moment : Moment) : Bool :=
  moment.deed == .expect .marker "at end of statement" &&
    moment.machine.cursor.check (· == .marker)

/-- The deeds that go ahead and complete no statement. -/
def Deed.isOrdinary (deed : Deed) : Bool :=
  deed.isForward && deed != .expect .marker "at end of statement"

theorem Deed.isOrdinary_iff {deed : Deed} :
    deed.isOrdinary ↔ deed.isForward ∧ deed ≠ .expect .marker "at end of statement" := by
  rw [isOrdinary, Bool.and_eq_true_iff, bne_iff_ne]

/-- A place with no loop ahead. -/
def Cursor.Loopless (cursor : Cursor) : Prop := ∀ token ∈ cursor.rest, token.kind ≠ .whileKw

theorem Cursor.Loopless.of_suffix {cursor after : Cursor} (loopless : cursor.Loopless)
    (ahead : after.rest <:+ cursor.rest) : after.Loopless :=
  fun token member => loopless token (ahead.subset member)

namespace Plan

variable {α β : Type}

/-- How many statements are executed with success while a plan is carried out. -/
def completed (plan : Plan α) (machine : Machine) : Nat :=
  (plan.history machine).countP Moment.completes

theorem completed_pure (result : α) (machine : Machine) :
    (pure result : Plan α).completed machine = 0 := rfl

theorem completed_perform (deed : Deed) (machine : Machine) :
    (perform deed).completed machine = (Moment.mk deed machine).completes.toNat := by
  rw [completed, history_perform, List.countP_singleton]
  cases (Moment.mk deed machine).completes <;> rfl

theorem completed_of_isOrdinary {deed : Deed} (ordinary : deed.isOrdinary) (machine : Machine) :
    (perform deed).completed machine = 0 := by
  obtain ⟨-, differs⟩ := Deed.isOrdinary_iff.mp ordinary
  rw [completed_perform, Moment.completes, beq_false_of_ne differs]
  rfl

theorem completed_bind_of_ok {plan : Plan α} {next : α → Plan β}
    {machine after : Machine} {result : α} (carried : plan.run machine = .ok result after) :
    (plan >>= next).completed machine = plan.completed machine +
      (next result).completed after := by
  rw [completed, history_bind_of_ok carried, List.countP_append, completed, completed]

theorem completed_bind_of_error {plan : Plan α} {next : α → Plan β} {machine after : Machine}
    {reason : Stop} (carried : plan.run machine = .error reason after) :
    (plan >>= next).completed machine = plan.completed machine := by
  rw [completed, history_bind_of_error carried, completed]

theorem completed_marker_of_ok {machine after : Machine} {u : Unit}
    (passed : (Deed.expect .marker "at end of statement").perform machine = .ok u after) :
    (perform (.expect .marker "at end of statement")).completed machine = 1 := by
  obtain ⟨token, rest, parts, isMarker, -⟩ := Exec.expect_eq_ok.mp passed
  have marked : machine.cursor.check (· == .marker) = true := by
    rw [Cursor.check, parts]
    exact beq_iff_eq.mpr isMarker
  rw [completed_perform, Moment.completes, marked, beq_self_eq_true]
  rfl

theorem completed_marker_of_error {machine after : Machine} {reason : Stop}
    (failed : (Deed.expect .marker "at end of statement").perform machine =
      .error reason after) :
    (perform (.expect .marker "at end of statement")).completed machine = 0 := by
  have unmarked : machine.cursor.check (· == .marker) = false := by
    rw [Cursor.check]
    split
    · next token rest parts =>
        refine beq_false_of_ne fun isMarker => ?_
        cases failed.symm.trans (Exec.expect_of_kind parts isMarker _)
    · rfl
  rw [completed_perform, Moment.completes, unmarked, Bool.and_false]
  rfl

/-- A statement that succeeds is counted, besides the statements inside it. -/
theorem completed_statement_of_ok {steps : Nat} {machine after : Machine} {u : Unit}
    (carried : (statement steps).run machine = .ok u after) :
    0 < (statement steps).completed machine := by
  cases steps with
  | zero => cases carried
  | succ steps =>
      rw [statement] at carried ⊢
      rw [run_bind] at carried
      obtain ⟨_, begun, begins, carried⟩ := bind_eq_ok.mp carried
      rw [run_bind] at carried
      obtain ⟨_, opened, opens, carried⟩ := bind_eq_ok.mp carried
      rw [run_bind] at carried
      obtain ⟨_, closing, executes, closes⟩ := bind_eq_ok.mp carried
      rw [completed_bind_of_ok begins, completed_bind_of_ok opens,
        completed_bind_of_ok executes]
      rw [run_perform] at closes
      have counted := completed_marker_of_ok closes
      omega

/-! ## Tokens pay for statements -/

/-- What carrying a plan out costs. Every token that is passed is worth one, and a statement
that comes to its end costs three; with `credit` in hand at the begin, `left` are in hand at the
end. With fewer than `room` tokens ahead the plan does not stop for want of steps. -/
structure Spends (plan : Plan α) (machine : Machine) (room credit left : Nat) : Prop where
  succeeds : ∀ {result after}, plan.run machine = .ok result after →
    after.cursor.rest <:+ machine.cursor.rest ∧
      3 * plan.completed machine + after.cursor.rest.length + left ≤
        machine.cursor.rest.length + credit
  stops : ∀ {reason after}, plan.run machine = .error reason after →
    3 * plan.completed machine ≤ machine.cursor.rest.length + credit ∧
      (machine.cursor.rest.length < room → reason ≠ .outOfSteps)

namespace Spends

variable {plan : Plan α} {next : α → Plan β} {machine : Machine} {room credit middle left : Nat}

theorem bind (advance : Nat) (spends : plan.Spends machine room credit middle)
    (advances : ∀ {result after}, plan.run machine = .ok result after →
      after.cursor.rest.length + advance ≤ machine.cursor.rest.length)
    (spendsNext : ∀ {result after}, plan.run machine = .ok result after →
      (next result).Spends after (room - advance) middle left) :
    (plan >>= next).Spends machine room credit left where
  succeeds carried := by
    rw [run_bind] at carried
    obtain ⟨result, between, begun, ended⟩ := bind_eq_ok.mp carried
    obtain ⟨ahead, paid⟩ := spends.succeeds begun
    obtain ⟨aheadNext, paidNext⟩ := (spendsNext begun).succeeds ended
    refine ⟨aheadNext.trans ahead, ?_⟩
    rw [completed_bind_of_ok begun]
    omega
  stops carried := by
    rw [run_bind] at carried
    rcases bind_eq_error.mp carried with failed | ⟨result, between, begun, ended⟩
    · rw [completed_bind_of_error failed]
      exact spends.stops failed
    · obtain ⟨-, paid⟩ := spends.succeeds begun
      obtain ⟨paidNext, enough⟩ := (spendsNext begun).stops ended
      have shorter := advances begun
      rw [completed_bind_of_ok begun]
      refine ⟨by omega, fun fits => enough ?_⟩
      omega

end Spends

/-- What carrying a plan out costs wherever no loop is ahead. -/
def Thrifty (plan : Plan α) (room credit left : Nat) : Prop :=
  ∀ machine, machine.cursor.Loopless → plan.Spends machine room credit left

namespace Thrifty

variable {plan : Plan α} {next : α → Plan β} {room credit middle left : Nat}

theorem pure (result : α) : (pure result : Plan α).Thrifty room credit credit := by
  intro machine _
  constructor
  · intro result after carried
    cases carried
    refine ⟨List.suffix_rfl, ?_⟩
    rw [completed_pure]
    omega
  · intro reason after carried
    cases carried

theorem stop {reason : Stop} (known : 0 < room → reason ≠ .outOfSteps) :
    (stop reason : Plan α).Thrifty room credit left := by
  intro machine _
  constructor
  · intro result after carried
    cases carried
  · intro reason after carried
    cases carried
    exact ⟨Nat.zero_le _, fun fits => known (Nat.zero_lt_of_lt fits)⟩

theorem fail (cause : Failure) :
    (Plan.stop (.failure cause) : Plan α).Thrifty room credit left := stop fun _ => nofun

/-- A plan that passes tokens leaves less room to fill for what follows. -/
theorem advancing (advance : Nat) (thrifty : plan.Thrifty room credit middle)
    (advances : ∀ {machine result after}, plan.run machine = .ok result after →
      after.cursor.rest.length + advance ≤ machine.cursor.rest.length)
    (thriftyNext : ∀ result, (next result).Thrifty (room - advance) middle left) :
    (plan >>= next).Thrifty room credit left := by
  intro machine loopless
  have spends := thrifty machine loopless
  exact spends.bind advance advances fun {result after} carried =>
    thriftyNext result after (loopless.of_suffix (spends.succeeds carried).1)

theorem bind (thrifty : plan.Thrifty room credit middle)
    (thriftyNext : ∀ result, (next result).Thrifty room middle left) :
    (plan >>= next).Thrifty room credit left := by
  intro machine loopless
  have spends := thrifty machine loopless
  exact spends.bind 0 (fun carried => (spends.succeeds carried).1.length_le)
    fun {result after} carried =>
    thriftyNext result after (loopless.of_suffix (spends.succeeds carried).1)

variable {deed : Deed}

/-- A deed that passes tokens and saves them, or some of them. -/
theorem perform (gain : Nat) (ordinary : deed.isOrdinary)
    (advances : ∀ {machine result after}, deed.perform machine = .ok result after →
      after.cursor.rest.length + gain ≤ machine.cursor.rest.length) :
    (perform deed).Thrifty room credit (credit + gain) := by
  intro machine _
  have goes := deed.perform_goesAhead (Deed.isOrdinary_iff.mp ordinary).1
  constructor
  · intro result after carried
    rw [run_perform] at carried
    have shorter := advances carried
    refine ⟨(goes.succeeds carried).suffix, ?_⟩
    rw [completed_of_isOrdinary ordinary]
    omega
  · intro reason after carried
    rw [run_perform] at carried
    rw [completed_of_isOrdinary ordinary]
    exact ⟨Nat.zero_le _, fun _ => (goes.stops carried).1⟩

theorem last (ordinary : deed.isOrdinary) : (Plan.perform deed).Thrifty room credit credit :=
  perform 0 ordinary fun performed =>
    ((deed.perform_goesAhead (Deed.isOrdinary_iff.mp ordinary).1).succeeds
      performed).suffix.length_le

/-- A deed whose tokens are not needed to pay for anything. -/
theorem step {next : deed.Result → Plan β} (ordinary : deed.isOrdinary)
    (thriftyNext : ∀ result, (next result).Thrifty room credit left) :
    (Plan.perform deed >>= next).Thrifty room credit left :=
  (last ordinary).bind thriftyNext

/-- A deed that passes a token which is saved. -/
theorem word {next : deed.Result → Plan β} (ordinary : deed.isOrdinary) (isStep : deed.isStep)
    (thriftyNext : ∀ result, (next result).Thrifty (room - 1) (credit + 1) left) :
    (Plan.perform deed >>= next).Thrifty room credit left := by
  refine (perform 1 ordinary (deed.perform_advances isStep)).advancing 1
    (fun carried => ?_) thriftyNext
  rw [run_perform] at carried
  exact deed.perform_advances isStep carried

/-! ## What a statement costs -/

theorem printStatement : printStatement.Thrifty room credit (credit + 1) :=
  word rfl rfl fun _ => step rfl fun _ => step rfl fun _ => step rfl fun _ => last rfl

theorem declarationStatement : declarationStatement.Thrifty room credit (credit + 1) :=
  word rfl rfl fun _ => step rfl fun _ => step rfl fun _ => step rfl fun _ =>
    step rfl fun _ => last rfl

theorem assignTo (name : Text) (assignment : Exec.Assignment) :
    (assignTo name assignment).Thrifty room credit credit :=
  step rfl fun _ => step rfl fun _ => step rfl fun _ => last rfl

theorem identifierStatement : identifierStatement.Thrifty room credit (credit + 1) := by
  refine step rfl fun target => step rfl fun sign => ?_
  split
  · refine step rfl fun current => ?_
    split
    · exact word rfl rfl fun _ => step rfl fun _ => assignTo _ _
    · exact fail _
  · exact word rfl rfl fun _ => pure ()

theorem inputStatement : inputStatement.Thrifty room credit (credit + 1) := by
  refine word rfl rfl fun _ => step rfl fun _ => step rfl fun name => step rfl fun _ =>
    step rfl fun current => ?_
  cases current with
  | none => exact fail _
  | some current =>
      refine step rfl fun line => ?_
      cases Value.ofInput current.ty line with
      | error error => exact fail _
      | ok value => exact step rfl fun _ => last rfl

theorem returnStatement : returnStatement.Thrifty room credit (credit + 1) :=
  word rfl rfl fun _ => step rfl fun _ => step rfl fun _ => last rfl

theorem breakStatement : breakStatement.Thrifty room credit (credit + 1) :=
  word rfl rfl fun _ => step rfl fun _ => last rfl

theorem continueStatement : continueStatement.Thrifty room credit (credit + 1) :=
  word rfl rfl fun _ => step rfl fun _ => last rfl

section Blocks

variable {block : Plan Unit}

theorem branch (thriftyBlock : block.Thrifty room credit credit) (taken : Bool) :
    (branch block taken).Thrifty room credit credit := by
  cases taken with
  | true => exact step rfl fun _ => thriftyBlock
  | false => exact last rfl

theorem elseBranch (thriftyBlock : block.Thrifty room credit credit) (taken : Bool) :
    (elseBranch block taken).Thrifty room credit credit := by
  refine step rfl fun next => ?_
  split
  · exact step rfl fun _ => step rfl fun _ => branch thriftyBlock taken
  · exact pure ()

theorem branches (thriftyBlock : block.Thrifty room credit credit) (condition : Value) :
    (branches block condition).Thrifty room credit credit := by
  cases condition with
  | boolean holds =>
      refine step rfl fun _ => step rfl fun _ => ?_
      exact (branch thriftyBlock holds).bind fun _ =>
        (elseBranch thriftyBlock _).bind fun _ => last rfl
  | _ => exact fail _

variable (thriftyBlock : block.Thrifty (room - 1) (credit + 1) (credit + 1))

include thriftyBlock

theorem conditionalStatement : (conditionalStatement block).Thrifty room credit (credit + 1) :=
  word rfl rfl fun _ => step rfl fun _ => step rfl fun condition => step rfl fun _ =>
    branches thriftyBlock condition

/-- The part of a statement between its markers saves one token. -/
theorem statementBody (turns : Cursor → Cursor → Plan Nat) :
    (statementBody block turns).Thrifty room credit (credit + 1) := by
  intro machine loopless
  have looks : (Plan.perform (.peek 0)).Spends machine room credit credit :=
    last rfl machine loopless
  refine looks.bind 0 (fun carried => (looks.succeeds carried).1.length_le)
    fun {next after} carried => ?_
  cases carried
  -- The cases are split at the machine, because the case of a loop is excluded by what stands
  -- ahead of it.
  cases parts : machine.cursor.rest with
  | nil =>
      simp only [Cursor.peek, parts]
      exact fail _ machine loopless
  | cons first rest =>
      simp only [Cursor.peek, parts, List.getElem?_cons_zero, Option.map_some]
      cases kind : first.kind with
      | printKw => exact printStatement machine loopless
      | varKw => exact declarationStatement machine loopless
      | identifier => exact identifierStatement machine loopless
      | ifKw => exact conditionalStatement thriftyBlock machine loopless
      | whileKw => exact absurd kind (loopless first (parts ▸ List.mem_cons_self))
      | inputKw => exact inputStatement machine loopless
      | returnKw => exact returnStatement machine loopless
      | breakKw => exact breakStatement machine loopless
      | continueKw => exact continueStatement machine loopless
      | _ => exact fail _ machine loopless

end Blocks

/-- The second marker of a statement, and two tokens saved before it, pay for the statement. -/
theorem completing :
    (Plan.perform (.expect .marker "at end of statement")).Thrifty room
      (credit + 2) credit := by
  intro machine _
  have goes := (Deed.expect .marker "at end of statement").perform_goesAhead rfl
  constructor
  · intro result after carried
    rw [run_perform] at carried
    have shorter := Deed.perform_advances rfl carried
    rw [completed_marker_of_ok carried]
    exact ⟨(goes.succeeds carried).suffix, by omega⟩
  · intro reason after carried
    rw [run_perform] at carried
    rw [completed_marker_of_error carried]
    exact ⟨Nat.zero_le _, fun _ => (goes.stops carried).1⟩

/-- What follows a statement has fewer tokens ahead. -/
theorem afterStatement {steps : Nat} {next : Plan Unit}
    (thrifty : (statement steps).Thrifty room credit middle)
    (thriftyNext : next.Thrifty (room - 1) middle left) :
    (do statement steps; next).Thrifty room credit left := by
  refine thrifty.advancing 1 (fun carried => ?_) fun _ => thriftyNext
  rw [run_statement] at carried
  have shorter := Exec.statement_advances carried
  omega

end Thrifty

-- A block spends a step before each of its statements, so its room is one less than its budget.
-- That is enough for the blocks inside a statement, because the marker and the first word of
-- the statement have been passed.
mutual

theorem statement_thrifty (steps credit : Nat) :
    (statement steps).Thrifty steps credit credit := by
  cases steps with
  | zero =>
      rw [statement]
      exact .stop fun some => absurd some (Nat.lt_irrefl 0)
  | succ steps =>
      rw [statement]
      refine .step rfl fun _ => .word (by decide) rfl fun _ => ?_
      exact (Thrifty.statementBody (block_thrifty steps (credit + 2)) _).bind
        fun _ => .completing

theorem block_thrifty (steps credit : Nat) :
    (block steps).Thrifty (steps - 1) credit credit := by
  cases steps with
  | zero =>
      rw [block]
      exact .stop fun some => absurd some (Nat.lt_irrefl 0)
  | succ steps =>
      rw [block]
      refine .step rfl fun next => ?_
      cases next with
      | none => exact .fail _
      | some token =>
          dsimp only
          split
          · exact .last rfl
          · refine .step rfl fun flags => ?_
            split
            · exact .last rfl
            · exact (statement_thrifty steps credit).afterStatement (block_thrifty steps credit)

end

/-- **Tokens pay for a run without loops.** -/
theorem statements_thrifty (steps credit : Nat) :
    (statements steps).Thrifty (steps - 1) credit credit := by
  induction steps with
  | zero => exact .stop fun some => absurd some (Nat.lt_irrefl 0)
  | succ steps ih =>
      refine .step rfl fun next => .step rfl fun flags => ?_
      split
      · exact .pure ()
      · exact (statement_thrifty steps credit).afterStatement ih

end Plan

/-! ## Evaluations, statements and runs -/

namespace Expression

/-- An evaluation that was begun at an index comes to a value at a later index, or stops there
or later, and not for want of steps. Neither index is beyond the end of the program. -/
inductive Arrives (tokens : List Token) (index : Nat) :
    EStateM.Result Stop Cursor Value → Prop where
  | valued {value : Value} {stop : Nat} (further : index < stop)
      (within : stop ≤ tokens.length) :
      Arrives tokens index (.ok value (.atIndex tokens stop))
  | stopped {reason : Stop} {stop : Nat} (usual : reason ≠ .outOfSteps) (ahead : index ≤ stop)
      (within : stop ≤ tokens.length) :
      Arrives tokens index (.error reason (.atIndex tokens stop))

theorem scanner_arrives {tokens : List Token} {index : Nat} (within : index ≤ tokens.length)
    (bindings : Bindings) (depth : Nat) (tier : Tier) :
    Arrives tokens index (scanner bindings (inside bindings depth) tier
      (.atIndex tokens index)) := by
  have goes : (scanner bindings (inside bindings depth) tier).GoesAhead :=
    scanner_goesAhead (inside_goesAhead bindings depth) tier
  cases scanned : scanner bindings (inside bindings depth) tier (.atIndex tokens index) with
  | ok value after =>
      obtain ⟨stop, -, within', rfl⟩ := (goes.succeeds scanned).atIndex within
      have shorter := (scanner_sound bindings depth tier).advances _ _ _ scanned
      rw [Cursor.rest_length_atIndex, Cursor.rest_length_atIndex] at shorter
      exact .valued (by omega) within'
  | error reason after =>
      obtain ⟨usual, passes⟩ := goes.stops scanned
      obtain ⟨stop, ahead, within', rfl⟩ := passes.atIndex within
      refine .stopped ?_ ahead within'
      rintro rfl
      cases usual

end Expression

namespace Program

variable {tokens : List Token} {index : Nat} {machine : Machine}

/-- Every machine on the way of a statement, of a block or of a run is at a place of the
program. -/
theorem timelines_isPlace (place : machine.cursor.IsPlace tokens) (steps : Nat) :
    (∀ later ∈ (Plan.statement steps).timeline machine, later.cursor.IsPlace tokens) ∧
    (∀ later ∈ (Plan.block steps).timeline machine, later.cursor.IsPlace tokens) ∧
    ∀ later ∈ (Plan.statements steps).timeline machine, later.cursor.IsPlace tokens := by
  have lawful := placed_lawful tokens
  refine ⟨(lawful.statement steps).timeline (fun _ => And.left) place, ?_,
    (lawful.statements steps).timeline (fun _ => And.left) place⟩
  have keeps :=
    (lawful.block steps).mono (fun _ => id) (fun _ => id) (fun _ _ => And.left) fun _ _ => id
  exact keeps.timeline (fun _ => And.left) place

theorem statement_arrives (within : index ≤ tokens.length)
    (here : machine.cursor = .atIndex tokens index) {steps : Nat} {after : Machine} {u : Unit}
    (succeeds : Exec.statement steps machine = .ok u after) :
    (∃ stop, index + 3 ≤ stop ∧ stop ≤ tokens.length ∧ after.cursor = .atIndex tokens stop) ∧
      0 < (Plan.statement steps).completed machine := by
  have carried : (Plan.statement steps).run machine = .ok u after := by
    rw [Plan.run_statement, succeeds]
  obtain ⟨stop, within', there⟩ : after.cursor.IsPlace tokens :=
    ((placed_lawful tokens).statement steps).succeeds machine ⟨index, within, here⟩
      u after carried
  have shorter := Exec.statement_advances succeeds
  rw [here, there, Cursor.rest_length_atIndex, Cursor.rest_length_atIndex] at shorter
  exact ⟨⟨stop, by omega, within', there⟩, Plan.completed_statement_of_ok carried⟩

/-- A run without loops does not use up a budget of two steps more than there are tokens ahead,
and completes no more than one statement for three of them. -/
theorem statements_of_loopless (machine : Machine) (loopless : machine.cursor.Loopless) :
    (∀ steps, machine.cursor.rest.length + 2 ≤ steps →
      ∀ after, Exec.statements steps machine ≠ .error .outOfSteps after) ∧
    ∀ steps, (Plan.statements steps).completed machine ≤ machine.cursor.rest.length / 3 := by
  constructor
  · intro steps enough after stops
    rw [← Plan.run_statements] at stops
    exact ((Plan.statements_thrifty steps 0 machine loopless).stops stops).2 (by omega) rfl
  · intro steps
    have spends := Plan.statements_thrifty steps 0 machine loopless
    have paid : 3 * (Plan.statements steps).completed machine ≤ machine.cursor.rest.length := by
      cases carried : (Plan.statements steps).run machine with
      | ok result after =>
          have paid := (spends.succeeds carried).2
          omega
      | error reason after => exact (spends.stops carried).1
    omega

theorem conclude_ne_outOfSteps {result : EStateM.Result Stop Machine Unit}
    (ends : ∀ after, result ≠ .error .outOfSteps after) :
    (conclude result).1 ≠ .outOfSteps := by
  cases result with
  | ok _ after => nofun
  | error reason after =>
      cases reason with
      | outOfSteps => exact absurd rfl (ends after)
      | _ => nofun

theorem executes_of_loopless (loopless : ∀ token ∈ tokens, token.kind ≠ .whileKw)
    (env : Environment) (console : Console) :
    ∃ ending after, Executes tokens env console ending after := by
  obtain ⟨ends, -⟩ := statements_of_loopless (.enter tokens env console) loopless
  exact ⟨_, _, tokens.length + 2, rfl, conclude_ne_outOfSteps (ends _ (Nat.le_refl _))⟩

open Expression (Arrives ComesTo chainOn evaluate inside scanner)

/-- **Progress and termination.** Let a machine stand at an index of a program, not beyond its
end, with whatever variables, flags and input.

An evaluation ends, with a value at a later index or with a failure, and so does every part of
it. Its chains end by themselves, and a limit on the nesting of groups that is not below the
number of tokens ahead is never reached. A statement that succeeds ends at least three indices
later, and it is counted. Neither a statement nor a block nor a run of statements ever comes to
a machine whose cursor is beyond the end of the program, whether it succeeds or fails.

If no token of the program begins a loop, then the run ends, with two steps more than there are
tokens ahead, and executes no more than one statement with success for three of them. -/
theorem progress_and_termination (tokens : List Token) (index : Nat)
    (within : index ≤ tokens.length) (machine : Machine)
    (here : machine.cursor = .atIndex tokens index) :
    (Arrives tokens index
        (evaluate machine.console.groupLimit machine.env.bindings machine.cursor) ∧
      ∀ bindings depth,
        (∀ tier, Arrives tokens index
          (scanner bindings (inside bindings depth) tier machine.cursor)) ∧
        (∀ (level : Level) left cursor,
          ComesTo level.operator? (scanner bindings (inside bindings depth) level.operand)
            left cursor
            (chainOn level.operator? (scanner bindings (inside bindings depth) level.operand)
              left cursor)) ∧
        ∀ tier, tokens.length - index ≤ depth → ∀ deeper, depth ≤ deeper →
          scanner bindings (inside bindings deeper) tier machine.cursor =
            scanner bindings (inside bindings depth) tier machine.cursor) ∧
    (∀ steps after, Exec.statement steps machine = .ok () after →
      (∃ stop, index + 3 ≤ stop ∧ stop ≤ tokens.length ∧ after.cursor = .atIndex tokens stop) ∧
        0 < (Plan.statement steps).completed machine) ∧
    (∀ steps, ∀ later ∈ (Plan.statement steps).timeline machine ++
        (Plan.block steps).timeline machine ++ (Plan.statements steps).timeline machine,
      ∃ stop, stop ≤ tokens.length ∧ later.cursor = .atIndex tokens stop) ∧
    ((∀ token ∈ tokens, token.kind ≠ .whileKw) →
      (∀ steps, tokens.length - index + 2 ≤ steps →
        ∀ after, Exec.statements steps machine ≠ .error .outOfSteps after) ∧
      (∀ steps, (Plan.statements steps).completed machine ≤ (tokens.length - index) / 3) ∧
      ∀ env console, ∃ ending after, Executes tokens env console ending after) := by
  have ahead : machine.cursor.rest.length = tokens.length - index := by
    rw [here, Cursor.rest_length_atIndex]
  refine ⟨⟨?_, fun bindings depth => ⟨fun tier => ?_, fun level left cursor => ?_, ?_⟩⟩,
    fun steps after => statement_arrives within here, fun steps later member => ?_,
    fun loopless => ?_⟩
  · rw [here]
    exact Expression.scanner_arrives within machine.env.bindings machine.console.groupLimit
      (.chain .logic)
  · rw [here]
    exact Expression.scanner_arrives within bindings depth tier
  · exact Expression.chainOn_comesTo
      (Expression.scanner_sound bindings depth level.operand).advances left cursor
  · intro tier enough deeper larger
    exact Expression.scanner_limit bindings (Nat.le_trans enough larger) enough tier
      machine.cursor (Nat.le_of_eq ahead)
  · obtain ⟨statement, block, statements⟩ := timelines_isPlace ⟨index, within, here⟩ steps
    rcases List.mem_append.mp member with inside | running
    · rcases List.mem_append.mp inside with inStatement | inBlock
      · exact statement later inStatement
      · exact block later inBlock
    · exact statements later running
  · have looplessAhead : machine.cursor.Loopless := by
      rw [here]
      exact fun token member => loopless token (List.mem_of_mem_drop member)
    obtain ⟨ends, bounded⟩ := statements_of_loopless machine looplessAhead
    rw [ahead] at ends bounded
    exact ⟨ends, bounded, executes_of_loopless loopless⟩

/-- A conditional with a statement in its block, and the begin of another statement. -/
def truncatedTokens : List Token :=
  [.sign .marker, .sign .ifKw, .sign .groupOpen, .literal (.boolean true), .sign .groupClose,
    .sign .blockOpen, .sign .marker, .sign .printKw, .sign .groupOpen, .literal (.int 1),
    .sign .groupClose, .sign .marker, .sign .blockClose, .sign .breakKw, .sign .marker,
      .sign .marker, .sign .printKw].map Symbol.token

/-- The machine before `truncatedTokens`. -/
def truncated : Machine := .enter truncatedTokens { strict := false } {}

/-- The conditional ends at the index 15, behind the statement in its block. The run fails at
the end of the tokens and has executed two statements with success, out of five that the tokens
would pay for. -/
theorem progress_and_termination_truncated :
    (∀ token ∈ truncatedTokens, token.kind ≠ .whileKw) ∧
    ((Plan.statement 19).final truncated).cursor = .atIndex truncatedTokens 15 ∧
    ((Plan.statements 19).final truncated).cursor = .atIndex truncatedTokens 17 ∧
    (Plan.statements 19).completed truncated = 2 ∧ 2 ≤ truncatedTokens.length / 3 ∧
    ∃ ending after, Executes truncatedTokens { strict := false } {} ending after := by
  have loopless : ∀ token ∈ truncatedTokens, token.kind ≠ .whileKw := by decide
  have places : ((Plan.statement 19).final truncated).cursor = .atIndex truncatedTokens 15 ∧
      ((Plan.statements 19).final truncated).cursor = .atIndex truncatedTokens 17 := by
    decide +kernel
  have counted : (Plan.statements 19).completed truncated = 2 := by decide +kernel
  obtain ⟨-, -, -, terminates⟩ :=
    progress_and_termination truncatedTokens 0 (Nat.zero_le _) truncated rfl
  obtain ⟨-, bounded, executes⟩ := terminates loopless
  exact ⟨loopless, places.1, places.2, counted, counted ▸ bounded 19, executes _ _⟩

end Program

end ToonScript
