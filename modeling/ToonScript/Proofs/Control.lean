import ToonScript.Proofs.Contract
import ToonScript.Proofs.Timeline
import ToonScript.Proofs.Tree.Printing

/-!
# The flow of control

Three flags interrupt the statements of a run. Which of them are set at a moment follows from
what was done before it, and a small automaton says how: a `Control` knows how many loops are
open and in which phase the run is. In the phase `running` everything may be done. After a
break, a continue or a return only a few deeds may follow, and the automaton has no step for the
others.

Every run follows the automaton (`Plan.statements_obeys`). So the flags at every moment are
those of a phase (`Control.Shows.next`), and what follows a break, a continue or a return is
read off the automaton: a break lasts up to the end of the innermost loop, a continue up to its
next turn, and a return up to the end of the run.
-/

set_option autoImplicit false

namespace ToonScript

/-! ## Phases and roles -/

/-- What the statements of a run are about. After a break the run is breaking until its loop has
ended, and leaving until the break is settled; after a continue it is continuing until the next
turn of the loop begins. -/
inductive Phase where
  | running
  | breaking
  | leaving
  | continuing
  | returning
deriving DecidableEq

/-- The flags that are set in a phase. -/
def Phase.flags : Phase → Flags
  | running => {}
  | breaking | leaving => { broke := true }
  | continuing => { continued := true }
  | returning => { returned := true }

/-- The parts that deeds play in the flow of control. A deed opens a loop when the body is
found, moves when the cursor is set to a place found before, idles when tokens are looked at or
passed and nothing is executed, and works in all other cases. -/
inductive Role where
  | breaks
  | continues
  | returns
  | opens
  | ends
  | settles
  | moves
  | idles
  | works
deriving DecidableEq

/-- The role of a deed. The end of a loop is known by the event that it leaves in the trace. -/
def Deed.role : Deed → Role
  | breakOff => .breaks
  | goOn => .continues
  | giveBack _ => .returns
  | closing .blockOpen _ _ => .opens
  | note (.looped _) => .ends
  | settle => .settles
  | moveTo _ => .moves
  | note _ | pass | expect _ _ | skipBlock | peek _ | flags => .idles
  | _ => .works

/-- The number of loops that are open after some moments. -/
def openLoops (moments : List Moment) : Nat :=
  moments.countP (·.deed.role = .opens) - moments.countP (·.deed.role = .ends)

/-! ## The automaton -/

/-- How many loops are open, and the phase of the run. -/
structure Control where
  loops : Nat
  phase : Phase
deriving DecidableEq

/-- The roles of deeds that a run does in any order as long as nothing interrupts it. -/
def Role.isOrdinary : Role → Bool
  | settles | moves | idles | works => true
  | _ => false

/-- The roles of deeds that leave the flags as they are. -/
def Role.isSteady : Role → Bool
  | opens | ends | moves | idles | works => true
  | _ => false

namespace Control

/-- The control before a run. -/
def start : Control := ⟨0, .running⟩

/-- What a deed of a role does to the control. -/
inductive Step : Control → Role → Control → Prop where
  | runs {loops : Nat} {role : Role} (ordinary : role.isOrdinary) :
      Step ⟨loops, .running⟩ role ⟨loops, .running⟩
  | breaks {loops : Nat} : Step ⟨loops, .running⟩ .breaks ⟨loops, .breaking⟩
  | continues {loops : Nat} : Step ⟨loops, .running⟩ .continues ⟨loops, .continuing⟩
  | returns {loops : Nat} : Step ⟨loops, .running⟩ .returns ⟨loops, .returning⟩
  | opens {loops : Nat} : Step ⟨loops, .running⟩ .opens ⟨loops + 1, .running⟩
  | ends {loops : Nat} : Step ⟨loops + 1, .running⟩ .ends ⟨loops, .running⟩
  | leaves {loops : Nat} : Step ⟨loops + 1, .breaking⟩ .ends ⟨loops, .leaving⟩
  | settles {loops : Nat} : Step ⟨loops, .leaving⟩ .settles ⟨loops, .running⟩
  | resumes {loops : Nat} : Step ⟨loops + 1, .continuing⟩ .settles ⟨loops + 1, .running⟩
  | unwinds {loops : Nat} : Step ⟨loops + 1, .returning⟩ .ends ⟨loops, .returning⟩
  | passes {loops : Nat} {role : Role} (outward : role = .settles ∨ role = .moves) :
      Step ⟨loops, .returning⟩ role ⟨loops, .returning⟩
  | idles {control : Control} (firm : control.phase ≠ .leaving) : Step control .idles control

/-- The steps of some moments, one after another. -/
inductive Follows : Control → List Moment → Control → Prop where
  | nil {control : Control} : Follows control [] control
  | cons {control middle last : Control} {moment : Moment} {moments : List Moment}
      (step : control.Step moment.deed.role middle) (follows : middle.Follows moments last) :
      Follows control (moment :: moments) last

/-- The control after a statement or a block with a number of open loops around it. -/
structure Within (control : Control) (loops : Nat) : Prop where
  loops : control.loops = loops
  firm : control.phase ≠ .leaving

/-- The flags of a machine are those of the phase, and it has a value to return where the phase
is to return. -/
structure Shows (control : Control) (machine : Machine) : Prop where
  flags : machine.flags = control.phase.flags
  returnValue : machine.returnValue.isSome = control.phase.flags.returned

variable {control middle last : Control} {role : Role} {earlier later : List Moment}

theorem within_running (loops : Nat) : Within ⟨loops, .running⟩ loops := ⟨rfl, nofun⟩

theorem Follows.append (first : control.Follows earlier middle)
    (second : middle.Follows later last) :
    control.Follows (earlier ++ later) last := by
  induction first with
  | nil => exact second
  | cons step _ ih => exact .cons step (ih second)

theorem Follows.of_append (follows : control.Follows (earlier ++ later) last) :
    ∃ middle, control.Follows earlier middle ∧ middle.Follows later last := by
  induction earlier generalizing control with
  | nil => exact ⟨control, .nil, follows⟩
  | cons moment earlier ih =>
      cases follows with
      | cons step follows =>
          obtain ⟨middle, first, second⟩ := ih follows
          exact ⟨middle, .cons step first, second⟩

/-- Loops are opened and ended as the control says. -/
theorem Follows.count (follows : control.Follows later last) :
    last.loops + later.countP (·.deed.role = .ends) =
      control.loops + later.countP (·.deed.role = .opens) := by
  induction follows with
  | nil => rfl
  | @cons control middle last moment moments step follows ih =>
      have once : middle.loops + (if moment.deed.role = .ends then 1 else 0) =
          control.loops + (if moment.deed.role = .opens then 1 else 0) := by
        generalize moment.deed.role = role at step ⊢
        cases step with
        | @runs loops role ordinary => cases role <;> first | rfl | cases ordinary
        | passes outward => rcases outward with rfl | rfl <;> rfl
        | _ => rfl
      simp only [List.countP_cons, decide_eq_true_eq]
      omega

theorem Follows.openLoops_eq (follows : start.Follows earlier control) :
    openLoops earlier = control.loops := by
  have counted : control.loops + earlier.countP (·.deed.role = .ends) =
      0 + earlier.countP (·.deed.role = .opens) := follows.count
  rw [openLoops]
  omega

/-- Only a break, a continue, a return and their settling change the flags. -/
theorem Step.flags_eq (step : control.Step role middle) (steady : role.isSteady) :
    middle.phase.flags = control.phase.flags := by
  cases step with
  | breaks | continues | returns | settles | resumes => cases steady
  | _ => rfl

end Control

theorem Deed.isSteady_of_isMove {deed : Deed} (isMove : deed.isMove) : deed.role.isSteady := by
  cases deed with
  | declare | assign | read | write | note | giveBack | breakOff | goOn | settle => cases isMove
  | closing opener closer what => cases opener <;> rfl
  | _ => rfl

/-- **One deed**: the control after it shows in the machine after it. -/
theorem Control.Shows.next {control next : Control} {moment : Moment}
    (shows : control.Shows moment.machine) (step : control.Step moment.deed.role next) :
    next.Shows moment.next := by
  have effect := moment.effect
  generalize moment.next = after at effect ⊢
  obtain ⟨deed, machine⟩ := moment
  obtain ⟨flags, returnValue⟩ := shows
  dsimp only at *
  cases effect with
  | moved isMove cursor =>
      have same := step.flags_eq (Deed.isSteady_of_isMove isMove)
      exact ⟨by rw [same, ← flags], by rw [same, ← returnValue]⟩
  | declared | redeclared | assigned | mismatched | refused | took | wrote =>
      have same := step.flags_eq rfl
      exact ⟨by rw [same, ← flags], by rw [same, ← returnValue]⟩
  | @noted event =>
      have same := step.flags_eq (by cases event <;> rfl)
      exact ⟨by rw [same, ← flags], by rw [same, ← returnValue]⟩
  | returned =>
      cases step with
      | returns => exact ⟨by rw [flags]; rfl, rfl⟩
      | runs ordinary => cases ordinary
      | passes outward => simp [Deed.role] at outward
  | broke =>
      cases step with
      | breaks => exact ⟨by rw [flags]; rfl, returnValue⟩
      | runs ordinary => cases ordinary
      | passes outward => simp [Deed.role] at outward
  | continued =>
      cases step with
      | continues => exact ⟨by rw [flags]; rfl, returnValue⟩
      | runs ordinary => cases ordinary
      | passes outward => simp [Deed.role] at outward
  | settled =>
      cases step with
      | runs | settles | resumes | passes => exact ⟨by rw [flags]; rfl, returnValue⟩

/-! ## Plans that follow the automaton -/

namespace Plan

variable {α β : Type} {start : Control}

/-- The control after a plan shows in the machine after it. -/
theorem final_shows {plan : Plan α} {machine : Machine} {last : Control}
    (shows : start.Shows machine) (follows : start.Follows (plan.history machine) last) :
    last.Shows (plan.final machine) := by
  induction plan generalizing start machine with
  | done result | stop reason =>
      cases follows
      exact shows
  | act deed next ih =>
      cases performed : deed.perform machine with
      | ok result after =>
          rw [history_act_of_ok performed] at follows
          rw [final_act_of_ok performed]
          cases follows with
          | cons step follows =>
              have shown := shows.next step
              rw [Moment.next_of_ok performed] at shown
              exact ih result shown follows
      | error reason after =>
          rw [history_act_of_error performed] at follows
          rw [final_act_of_error performed]
          cases follows with
          | cons step follows =>
              cases follows
              have shown := shows.next step
              rwa [Moment.next_of_error performed] at shown

/-- A plan that follows the automaton from a control on. It never stops between the end of a
loop and the settling of its break. -/
structure Obeys (plan : Plan α) (start : Control) (ends : α → Control → Prop) : Prop where
  succeeds : ∀ {machine result after}, start.Shows machine →
    plan.run machine = .ok result after →
    ∃ last, start.Follows (plan.history machine) last ∧ ends result last
  stops : ∀ {machine reason after}, start.Shows machine →
    plan.run machine = .error reason after →
    ∃ last, start.Follows (plan.history machine) last ∧ last.phase ≠ .leaving

namespace Obeys

variable {ends : α → Control → Prop} {next : Control}

theorem pure {result : α} (ended : ends result start) :
    (pure result : Plan α).Obeys start ends where
  succeeds _ carried := by
    cases carried
    exact ⟨start, .nil, ended⟩
  stops _ carried := by cases carried

theorem stop {reason : Stop} (firm : start.phase ≠ .leaving) :
    (stop reason : Plan α).Obeys start ends where
  succeeds _ carried := by cases carried
  stops _ _ := ⟨start, .nil, firm⟩

theorem bind {plan : Plan α} {more : α → Plan β} {last : β → Control → Prop}
    (obeys : plan.Obeys start ends)
    (obeysMore : ∀ result control, ends result control → (more result).Obeys control last) :
    (plan >>= more).Obeys start last where
  succeeds {machine _ _} shows carried := by
    rw [run_bind] at carried
    obtain ⟨given, middle, begun, ended⟩ := bind_eq_ok.mp carried
    obtain ⟨control, follows, known⟩ := obeys.succeeds shows begun
    have shown : control.Shows middle := final_of_ok begun ▸ final_shows shows follows
    obtain ⟨final, followsMore, isLast⟩ := (obeysMore given control known).succeeds shown ended
    rw [history_bind_of_ok begun]
    exact ⟨final, follows.append followsMore, isLast⟩
  stops {machine _ _} shows carried := by
    rw [run_bind] at carried
    rcases bind_eq_error.mp carried with failed | ⟨given, middle, begun, ended⟩
    · rw [history_bind_of_error failed]
      exact obeys.stops shows failed
    · obtain ⟨control, follows, known⟩ := obeys.succeeds shows begun
      have shown : control.Shows middle := final_of_ok begun ▸ final_shows shows follows
      obtain ⟨final, followsMore, firm⟩ := (obeysMore given control known).stops shown ended
      rw [history_bind_of_ok begun]
      exact ⟨final, follows.append followsMore, firm⟩

/-- A single deed, where the automaton has a step for it. What the deed gives may depend on the
machine, which shows the control. -/
theorem perform {deed : Deed} {known : deed.Result → Prop} (step : start.Step deed.role next)
    (firm : next.phase ≠ .leaving ∨ ∀ machine reason after, deed.perform machine ≠
      .error reason after)
    (gives : ∀ {machine result after}, start.Shows machine →
      deed.perform machine = .ok result after → known result) :
    (perform deed).Obeys start fun result control => control = next ∧ known result where
  succeeds {machine _ _} shows carried := by
    rw [run_perform] at carried
    rw [history_perform]
    exact ⟨next, .cons step .nil, rfl, gives shows carried⟩
  stops {machine _ _} _ carried := by
    rw [run_perform] at carried
    rw [history_perform]
    refine ⟨next, .cons step .nil, ?_⟩
    rcases firm with firm | always
    · exact firm
    · exact absurd carried (always _ _ _)

/-- A deed, where the automaton has a step for it, and then a plan. -/
theorem step {deed : Deed} {more : deed.Result → Plan α} (step : start.Step deed.role next)
    (firm : next.phase ≠ .leaving) (obeys : ∀ result, (more result).Obeys next ends) :
    (Plan.perform deed >>= more).Obeys start ends := by
  have first : (Plan.perform deed).Obeys start fun _ control => control = next ∧ True :=
    perform step (.inl firm) fun _ _ => trivial
  refine first.bind ?_
  rintro result control ⟨rfl, -⟩
  exact obeys result

/-- A deed, where the automaton has a step for it, at the end of a plan. -/
theorem last {deed : Deed} {ends : deed.Result → Control → Prop}
    (step : start.Step deed.role next) (firm : next.phase ≠ .leaving)
    (ended : ∀ result, ends result next) : (Plan.perform deed).Obeys start ends :=
  Obeys.step step firm fun result => pure (ended result)

/-- The flags that are looked at are those of the phase. -/
theorem flags {more : Flags → Plan α} (firm : start.phase ≠ .leaving)
    (obeys : (more start.phase.flags).Obeys start ends) :
    (Plan.perform .flags >>= more).Obeys start ends := by
  have first : (Plan.perform .flags).Obeys start fun result control => control = start ∧
      result = start.phase.flags := by
    refine perform (.idles firm) (.inl firm) fun shows performed => ?_
    cases performed
    exact shows.flags
  refine first.bind ?_
  rintro result control ⟨rfl, rfl⟩
  exact obeys

/-! The statements, one after another. Each of them is begun in the phase `running`, and leaves
as many loops open as there were. -/

section Statements

variable {loops : Nat}

theorem printStatement :
    printStatement.Obeys ⟨loops, .running⟩ fun _ control => control.Within loops :=
  step (.runs rfl) nofun fun _ => step (.runs rfl) nofun fun _ =>
    step (.runs rfl) nofun fun _ =>
    step (.runs rfl) nofun fun _ => last (.runs rfl) nofun fun _ => ⟨rfl, nofun⟩

theorem declarationStatement :
    declarationStatement.Obeys ⟨loops, .running⟩ fun _ control => control.Within loops :=
  step (.runs rfl) nofun fun _ => step (.runs rfl) nofun fun _ =>
    step (.runs rfl) nofun fun _ =>
    step (.runs rfl) nofun fun _ => step (.runs rfl) nofun fun _ =>
      last (.runs rfl) nofun fun _ => ⟨rfl, nofun⟩

theorem assignTo (name : Text) (assignment : Exec.Assignment) :
    (assignTo name assignment).Obeys ⟨loops, .running⟩ fun _ control => control.Within loops :=
  step (.runs rfl) nofun fun _ => step (.runs rfl) nofun fun _ =>
    step (.runs rfl) nofun fun _ => last (.runs rfl) nofun fun _ => ⟨rfl, nofun⟩

theorem identifierStatement :
    identifierStatement.Obeys ⟨loops, .running⟩ fun _ control => control.Within loops := by
  refine step (.runs rfl) nofun fun target => step (.runs rfl) nofun fun sign => ?_
  split
  · refine step (.runs rfl) nofun fun current => ?_
    split
    · exact step (.runs rfl) nofun fun _ => step (.runs rfl) nofun fun _ => assignTo _ _
    · exact stop nofun
  · exact step (.runs rfl) nofun fun _ => pure ⟨rfl, nofun⟩

theorem inputStatement :
    inputStatement.Obeys ⟨loops, .running⟩ fun _ control => control.Within loops := by
  refine step (.runs rfl) nofun fun _ => step (.runs rfl) nofun fun _ =>
    step (.runs rfl) nofun fun name =>
    step (.runs rfl) nofun fun _ => step (.runs rfl) nofun fun current => ?_
  cases current with
  | none => exact stop nofun
  | some current =>
      refine step (.runs rfl) nofun fun line => ?_
      cases Value.ofInput current.ty line with
      | error error => exact stop nofun
      | ok value =>
          exact step (.runs rfl) nofun fun _ => last (.runs rfl) nofun fun _ => ⟨rfl, nofun⟩

theorem returnStatement :
    returnStatement.Obeys ⟨loops, .running⟩ fun _ control => control.Within loops :=
  step (.runs rfl) nofun fun _ => step (.runs rfl) nofun fun _ => step .returns nofun fun _ =>
    last (.idles nofun) nofun fun _ => ⟨rfl, nofun⟩

theorem breakStatement :
    breakStatement.Obeys ⟨loops, .running⟩ fun _ control => control.Within loops :=
  step (.runs rfl) nofun fun _ => step .breaks nofun fun _ =>
    last (.idles nofun) nofun fun _ => ⟨rfl, nofun⟩

theorem continueStatement :
    continueStatement.Obeys ⟨loops, .running⟩ fun _ control => control.Within loops :=
  step (.runs rfl) nofun fun _ => step .continues nofun fun _ =>
    last (.idles nofun) nofun fun _ => ⟨rfl, nofun⟩

/-- Passing over a branch changes nothing, in whatever phase. -/
theorem branch_passed (block : Plan Unit) (firm : start.phase ≠ .leaving) :
    (branch block false).Obeys start fun _ control => control = start :=
  last (.idles firm) firm fun _ => rfl

theorem elseBranch_passed (block : Plan Unit) (firm : start.phase ≠ .leaving) :
    (elseBranch block false).Obeys start fun _ control => control = start := by
  refine step (.idles firm) firm fun next => ?_
  split
  · exact step (.idles firm) firm fun _ => step (.idles firm) firm fun _ =>
      branch_passed block firm
  · exact pure rfl

variable {block : Plan Unit} (obeysBlock : block.Obeys ⟨loops, .running⟩ fun _ control =>
  control.Within loops)

include obeysBlock

theorem branch_taken :
    (branch block true).Obeys ⟨loops, .running⟩ fun _ control => control.Within loops :=
  step (.runs rfl) nofun fun _ => obeysBlock

theorem elseBranch_taken :
    (elseBranch block true).Obeys ⟨loops, .running⟩ fun _ control => control.Within loops := by
  refine step (.runs rfl) nofun fun next => ?_
  split
  · exact step (.runs rfl) nofun fun _ => step (.runs rfl) nofun fun _ =>
      branch_taken obeysBlock
  · exact pure ⟨rfl, nofun⟩

/-- At most one branch is taken, so at most one of them is begun and none of them in another
phase. -/
theorem branches (condition : Value) :
    (branches block condition).Obeys ⟨loops, .running⟩ fun _ control =>
      control.Within loops := by
  have closes : ∀ control : Control, control.Within loops →
      (Plan.perform (.expect .breakKw "after 'if'/'else' structure")).Obeys control
        fun _ control => control.Within loops :=
    fun control within => last (.idles within.firm) within.firm fun _ => within
  cases condition with
  | boolean holds =>
      refine step (.runs rfl) nofun fun _ => step (.runs rfl) nofun fun _ => ?_
      cases holds with
      | true =>
          refine (branch_taken obeysBlock).bind fun _ control within => ?_
          refine (elseBranch_passed block within.firm).bind ?_
          rintro _ control rfl
          exact closes control within
      | false =>
          refine (branch_passed block (Control.within_running loops).firm).bind ?_
          rintro _ control rfl
          exact (elseBranch_taken obeysBlock).bind fun _ control within => closes control within
  | _ => exact stop nofun

theorem conditionalStatement :
    (conditionalStatement block).Obeys ⟨loops, .running⟩ fun _ control =>
      control.Within loops :=
  step (.runs rfl) nofun fun _ => step (.runs rfl) nofun fun _ =>
    step (.runs rfl) nofun fun condition =>
    step (.runs rfl) nofun fun _ => branches obeysBlock condition

omit obeysBlock

variable {turns : Cursor → Cursor → Plan Nat}
  (obeysTurns : ∀ condition body, (turns condition body).Obeys ⟨loops + 1, .running⟩
    fun _ control => control.Within (loops + 1) ∧ control.phase ≠ .continuing)

include obeysTurns

/-- The turns of a loop may end in a break or a return. The break is settled right behind them,
the return goes on. -/
theorem loopStatement :
    (loopStatement turns).Obeys ⟨loops, .running⟩ fun _ control => control.Within loops := by
  refine step (.runs rfl) nofun fun _ => step (.runs rfl) nofun fun _ =>
    step (.runs rfl) nofun fun condition =>
    step (.runs rfl) nofun fun _ => step (.runs rfl) nofun fun _ => ?_
  refine step (.runs rfl) nofun fun _ => step (.runs rfl) nofun fun body =>
    step .opens nofun fun _ => ?_
  refine (obeysTurns condition body).bind ?_
  rintro iterations ⟨_, phase⟩ ⟨⟨rfl, firm⟩, paused⟩
  cases phase with
  | running =>
      exact step .ends nofun fun _ => step (.runs rfl) nofun fun _ =>
        step (.runs rfl) nofun fun _ => last (.runs rfl) nofun fun _ => ⟨rfl, nofun⟩
  | breaking =>
      have ended : (Plan.perform (.note (.looped iterations))).Obeys ⟨loops + 1, .breaking⟩
          fun _ control => control = ⟨loops, .leaving⟩ ∧ True := by
        refine perform .leaves (.inr fun machine reason after stops => ?_) fun _ _ => trivial
        cases stops
      refine ended.bind ?_
      rintro _ control ⟨rfl, -⟩
      exact step .settles nofun fun _ => step (.runs rfl) nofun fun _ =>
        last (.runs rfl) nofun fun _ => ⟨rfl, nofun⟩
  | returning =>
      exact step .unwinds nofun fun _ => step (.passes (.inl rfl)) nofun fun _ =>
        step (.passes (.inr rfl)) nofun fun _ => last (.idles nofun) nofun fun _ => ⟨rfl, nofun⟩
  | leaving => exact absurd rfl firm
  | continuing => exact absurd rfl paused

include obeysBlock

theorem statementBody :
    (statementBody block turns).Obeys ⟨loops, .running⟩ fun _ control =>
      control.Within loops := by
  refine step (.runs rfl) nofun fun next => ?_
  split
  · exact printStatement
  · exact declarationStatement
  · exact identifierStatement
  · exact conditionalStatement obeysBlock
  · exact loopStatement obeysTurns
  · exact inputStatement
  · exact returnStatement
  · exact breakStatement
  · exact continueStatement
  · exact stop nofun

end Statements

end Obeys

mutual

theorem statement_obeys (steps loops : Nat) :
    (statement steps).Obeys ⟨loops, .running⟩ fun _ control => control.Within loops := by
  cases steps with
  | zero =>
      rw [statement]
      exact .stop nofun
  | succ steps =>
      rw [statement]
      refine .step (.runs rfl) nofun fun _ => .step (.runs rfl) nofun fun _ => ?_
      refine (Obeys.statementBody (block_obeys steps (Control.within_running loops))
        fun condition body => ?_).bind
        fun _ control within => .last (.idles within.firm) within.firm fun _ => within
      exact turns_obeys steps (.inl rfl) condition body 0

/-- A block may be entered or gone on with in any phase; it executes statements in the phase
`running` only. -/
theorem block_obeys (steps : Nat) {loops : Nat} {start : Control}
    (within : start.Within loops) :
    (block steps).Obeys start fun _ control => control.Within loops := by
  cases steps with
  | zero =>
      rw [block]
      exact .stop within.firm
  | succ steps =>
      rw [block]
      refine .step (.idles within.firm) within.firm fun next => ?_
      cases next with
      | none => exact .stop within.firm
      | some token =>
          dsimp only
          split
          · exact .last (.idles within.firm) within.firm fun _ => within
          · refine .flags within.firm ?_
            split
            · exact .last (.idles within.firm) within.firm fun _ => within
            · next uninterrupted =>
                obtain ⟨_, phase⟩ := start
                obtain ⟨rfl, firm⟩ := within
                cases phase with
                | running =>
                    exact (statement_obeys steps _).bind fun _ control within =>
                      block_obeys steps within
                | breaking | leaving | continuing | returning => exact absurd rfl uninterrupted

/-- A turn of a loop is begun in the phase `running` or after a continue. -/
theorem turns_obeys (steps : Nat) {loops : Nat} {phase : Phase}
    (ready : phase = .running ∨ phase = .continuing) (condition body : Cursor) (count : Nat) :
    (turns steps condition body count).Obeys ⟨loops + 1, phase⟩
      fun _ control => control.Within (loops + 1) ∧ control.phase ≠ .continuing := by
  have settles : Control.Step ⟨loops + 1, phase⟩ .settles ⟨loops + 1, .running⟩ := by
    rcases ready with rfl | rfl
    · exact .runs rfl
    · exact .resumes
  cases steps with
  | zero =>
      rw [turns]
      rcases ready with rfl | rfl <;> exact .stop nofun
  | succ steps =>
      rw [turns]
      refine .step settles nofun fun _ => .step (.runs rfl) nofun fun _ =>
        .step (.runs rfl) nofun fun value => .step (.runs rfl) nofun fun _ => ?_
      split
      · refine .step (.runs rfl) nofun fun _ => .step (.runs rfl) nofun fun _ => ?_
        refine (block_obeys steps (Control.within_running _)).bind ?_
        rintro _ ⟨_, after⟩ ⟨rfl, firm⟩
        refine .flags firm ?_
        cases after with
        | running => exact turns_obeys steps (.inl rfl) condition body (count + 1)
        | continuing => exact turns_obeys steps (.inr rfl) condition body (count + 1)
        | breaking | returning => exact .pure ⟨⟨rfl, nofun⟩, nofun⟩
        | leaving => exact absurd rfl firm
      · exact .pure ⟨⟨rfl, nofun⟩, nofun⟩
      · exact .step (.runs rfl) nofun fun _ => .pure ⟨⟨rfl, nofun⟩, nofun⟩

end

/-- **Every run follows the automaton.** -/
theorem statements_obeys (steps : Nat) {start : Control} (within : start.Within 0) :
    (statements steps).Obeys start fun _ control => control.Within 0 := by
  induction steps generalizing start with
  | zero => exact .stop within.firm
  | succ steps ih =>
      refine .step (.idles within.firm) within.firm fun next => .flags within.firm ?_
      split
      · exact .pure within
      · next unfinished =>
          obtain ⟨_, phase⟩ := start
          obtain ⟨rfl, firm⟩ := within
          cases phase with
          | running => exact (statement_obeys steps 0).bind fun _ control within => ih within
          | breaking | leaving | continuing | returning =>
              exact absurd (Bool.or_true _) unfinished

end Plan

/-! ## After a break, a continue and a return -/

namespace Control

variable {loops : Nat} {later : List Moment} {last : Control}

/-- After a break nothing is executed until its loop ends, and then the break is settled. -/
theorem Follows.of_breaking (follows : Follows ⟨loops, .breaking⟩ later last)
    (firm : last.phase ≠ .leaving) :
    (last.loops = loops ∧ ∀ moment ∈ later, moment.deed.role = .idles) ∨
      ∃ outer idle ended settled rest, loops = outer + 1 ∧
        later = idle ++ ended :: settled :: rest ∧
        (∀ moment ∈ idle, moment.deed.role = .idles) ∧ ended.deed.role = .ends ∧
        settled.deed.role = .settles ∧
        Follows ⟨loops, .breaking⟩ (idle ++ [ended]) ⟨outer, .leaving⟩ := by
  induction later with
  | nil =>
      cases follows
      exact .inl ⟨rfl, by simp⟩
  | cons moment later ih =>
      cases follows with
      | @cons _ middle _ _ _ step follows =>
          generalize isRole : moment.deed.role = role at step
          cases step with
          | @leaves outer =>
              cases follows with
              | nil => exact absurd rfl firm
              | @cons _ _ _ settled rest step follows =>
                  generalize isSettled : settled.deed.role = role at step
                  cases step with
                  | settles =>
                      have ends : Step ⟨outer + 1, .breaking⟩ moment.deed.role
                        ⟨outer, .leaving⟩ := isRole ▸ .leaves
                      exact .inr ⟨outer, [], moment, settled, rest, rfl, rfl, by simp, isRole,
                        isSettled, .cons ends .nil⟩
                  | idles firm => exact absurd rfl firm
          | idles =>
              rcases ih follows with
                ⟨same, idle⟩ | ⟨outer, idle, ended, settled, rest, isOuter, parts, idles, ends⟩
              · exact .inl ⟨same, List.forall_mem_cons.mpr ⟨isRole, idle⟩⟩
              · obtain ⟨isEnd, isSettled, path⟩ := ends
                have idling : Step ⟨loops, .breaking⟩ moment.deed.role ⟨loops, .breaking⟩ :=
                  isRole ▸ .idles nofun
                exact .inr ⟨outer, moment :: idle, ended, settled, rest,
                  isOuter, by
                  rw [parts]; rfl, List.forall_mem_cons.mpr ⟨isRole, idles⟩, isEnd, isSettled,
                    .cons idling path⟩

/-- After a continue nothing is executed until the next turn of its loop, where the continue is
settled. -/
theorem Follows.of_continuing (follows : Follows ⟨loops, .continuing⟩ later last) :
    (last.loops = loops ∧ ∀ moment ∈ later, moment.deed.role = .idles) ∨
      ∃ idle settled rest, 0 < loops ∧ later = idle ++ settled :: rest ∧
        (∀ moment ∈ idle, moment.deed.role = .idles) ∧ settled.deed.role = .settles ∧
        Follows ⟨loops, .continuing⟩ idle ⟨loops, .continuing⟩ := by
  induction later with
  | nil =>
      cases follows
      exact .inl ⟨rfl, by simp⟩
  | cons moment later ih =>
      cases follows with
      | @cons _ middle _ _ _ step follows =>
          generalize isRole : moment.deed.role = role at step
          cases step with
          | resumes =>
              exact .inr ⟨[], moment, later, Nat.succ_pos _, rfl, by simp, isRole, .nil⟩
          | idles =>
              rcases ih follows with
                ⟨same, idle⟩ | ⟨idle, settled, rest, isOpen, parts, idles, isSettled, path⟩
              · exact .inl ⟨same, List.forall_mem_cons.mpr ⟨isRole, idle⟩⟩
              · have idling : Step ⟨loops, .continuing⟩ moment.deed.role ⟨loops, .continuing⟩ :=
                  isRole ▸ .idles nofun
                exact .inr ⟨moment :: idle, settled, rest, isOpen, by rw [parts]; rfl,
                  List.forall_mem_cons.mpr ⟨isRole, idles⟩, isSettled, .cons idling path⟩

/-- The roles of deeds on the way out after a return. -/
theorem Step.of_returning {role : Role} {next : Control}
    (step : Step ⟨loops, .returning⟩ role next) :
    next.phase = .returning ∧ role ∈ [Role.idles, .ends, .settles, .moves] := by
  cases step with
  | unwinds | idles => exact ⟨rfl, by decide⟩
  | passes outward => rcases outward with rfl | rfl <;> exact ⟨rfl, by decide⟩

/-- After a return nothing is executed any more. -/
theorem Follows.of_returning (follows : Follows ⟨loops, .returning⟩ later last) :
    ∀ moment ∈ later, moment.deed.role ∈ [Role.idles, .ends, .settles, .moves] := by
  induction later generalizing loops with
  | nil => simp
  | cons moment later ih =>
      cases follows with
      | @cons _ middle _ _ _ step follows =>
          obtain ⟨outer, phase⟩ := middle
          obtain ⟨rfl, outward⟩ := step.of_returning
          exact List.forall_mem_cons.mpr ⟨outward, ih follows⟩

end Control

/-- What a return leaves as it is: the variables, the written lines, the input lines and the
returned value. -/
structure Machine.Rests (machine after : Machine) : Prop where
  env : after.env = machine.env
  output : after.console.output = machine.console.output
  feed : after.console.feed = machine.console.feed
  returnValue : after.returnValue = machine.returnValue

theorem Machine.Rests.trans {machine middle after : Machine} (first : machine.Rests middle)
    (second : middle.Rests after) : machine.Rests after :=
  ⟨second.env.trans first.env, second.output.trans first.output, second.feed.trans first.feed,
    second.returnValue.trans first.returnValue⟩

/-- A deed on the way out changes the cursor, the trace and the flags at most. -/
theorem Moment.next_rests {moment : Moment}
    (outward : moment.deed.role ∈ [Role.idles, .ends, .settles, .moves]) :
    moment.machine.Rests moment.next := by
  have effect := moment.effect
  generalize moment.next = after at effect ⊢
  obtain ⟨deed, machine⟩ := moment
  cases effect with
  | moved | settled => exact ⟨rfl, rfl, rfl, rfl⟩
  | noted => exact ⟨rfl, Console.note_output _ _, Console.note_feed _ _, rfl⟩
  | declared | redeclared | assigned | mismatched | refused | took | wrote | returned | broke
    | continued =>
      simp [Deed.role] at outward

namespace Plan

variable {α : Type} {start : Control}

/-- At every moment the control that was followed so far shows. -/
theorem shows_at {plan : Plan α} {machine : Machine} {here : Control}
    {earlier later : List Moment} {moment : Moment} (shows : start.Shows machine)
    (parts : plan.history machine = earlier ++ moment :: later)
    (follows : start.Follows earlier here) : here.Shows moment.machine := by
  induction plan generalizing start machine earlier with
  | done result | stop reason => cases earlier <;> cases parts
  | act deed next ih =>
      cases performed : deed.perform machine with
      | ok result after =>
          rw [history_act_of_ok performed] at parts
          cases follows with
          | nil =>
              obtain ⟨rfl, -⟩ := List.cons.inj parts
              exact shows
          | cons step follows =>
              obtain ⟨rfl, rest⟩ := List.cons.inj parts
              have shown := shows.next step
              rw [Moment.next_of_ok performed] at shown
              exact ih result shown rest follows
      | error reason after =>
          rw [history_act_of_error performed] at parts
          cases follows with
          | nil =>
              obtain ⟨rfl, -⟩ := List.cons.inj parts
              exact shows
          | @cons _ _ _ _ earlier step follows =>
              cases earlier <;> cases (List.cons.inj parts).2

/-- A plan that follows the automaton leaves a machine that has a value to return as it is. -/
theorem timeline_rests {plan : Plan α} {machine : Machine} {last : Control}
    (shows : start.Shows machine) (follows : start.Follows (plan.history machine) last) :
    (plan.timeline machine).Pairwise fun earlier later => earlier.returnValue.isSome →
      earlier.Rests later := by
  refine (timeline_pairwise _ (fun _ _ => ⟨rfl, rfl, rfl, rfl⟩) ?_ plan machine
    fun moment member => ?_).1
  · intro first middle after rests restsMore isSome
    exact (rests isSome).trans (restsMore ((rests isSome).returnValue ▸ isSome))
  · intro isSome
    obtain ⟨earlier, later, parts⟩ := List.append_of_mem member
    rw [parts] at follows
    obtain ⟨⟨loops, phase⟩, before, after⟩ := follows.of_append
    have returned := (shows_at shows parts before).returnValue
    rw [isSome] at returned
    cases phase with
    | returning =>
        cases after with
        | cons step after => exact moment.next_rests step.of_returning.2
    | running | breaking | leaving | continuing => cases returned

/-- A loop ends with its break or continue settled. -/
theorem loopStatement_settles (turns : Cursor → Cursor → Plan Nat) :
    (loopStatement turns).Meets (fun _ => True) (fun _ => True)
      (fun _ after => after.flags.broke = false ∧ after.flags.continued = false)
      fun _ _ => True := by
  have moves : ∀ {deed : Deed}, deed.isMove →
      (perform deed).Meets (fun machine => machine.flags.broke = false ∧
        machine.flags.continued = false)
        (fun _ => True) (fun _ after => after.flags.broke = false ∧
          after.flags.continued = false)
      fun _ _ => True := by
    intro deed isMove
    refine .perform (fun _ _ => trivial) ?_ fun _ _ _ _ _ => trivial
    intro machine clear result after performed
    obtain ⟨cursor, rfl⟩ := (Deed.perform_moves isMove).succeeds performed
    exact clear
  have settles : (perform .settle).Meets (fun _ => True) (fun _ => True)
      (fun _ after => after.flags.broke = false ∧ after.flags.continued = false)
      fun _ _ => True := by
    refine .perform (fun _ _ => trivial) ?_ fun _ _ _ _ _ => trivial
    intro machine _ result after performed
    cases performed
    exact ⟨rfl, rfl⟩
  refine (Meets.any _).bind fun _ => (Meets.any _).bind fun _ =>
    (Meets.any _).bind fun condition =>
    (Meets.any _).bind fun _ => (Meets.any _).bind fun _ => ?_
  refine (Meets.any _).bind fun _ => (Meets.any _).bind fun body =>
    (Meets.any _).bind fun after =>
    (Meets.any _).bind fun iterations => (Meets.any _).bind fun _ => ?_
  exact settles.bind fun _ => (moves rfl).bind fun _ => moves rfl

end Plan

/-- A loop that is carried out leaves neither a break nor a continue behind. -/
theorem Exec.statement_of_loop {steps : Nat} {machine after : Machine}
    (isLoop : (machine.cursor.peek 1).map Token.kind = some .whileKw)
    (succeeds : statement steps machine = .ok () after) :
    after.flags.broke = false ∧ after.flags.continued = false := by
  cases steps with
  | zero =>
      rw [statement] at succeeds
      cases succeeds
  | succ steps =>
      rw [statement] at succeeds
      obtain ⟨_, _, opened, succeeds⟩ := bind_eq_ok.mp succeeds
      obtain ⟨marker, rest, parts, -, rfl⟩ := expect_eq_ok.mp opened
      obtain ⟨_, ended, executed, closed⟩ := bind_eq_ok.mp succeeds
      obtain ⟨_, _, -, -, rfl⟩ := expect_eq_ok.mp closed
      have isNext : rest.head?.map Token.kind = some .whileKw := by
        rw [← isLoop, Cursor.peek, parts, List.head?_eq_getElem?, List.getElem?_cons_succ]
      simp only [statementBody, get_bind, isNext] at executed
      rw [← Plan.run_loopStatement fun condition body =>
        Plan.run_turns steps condition body 0] at executed
      have settled := (Plan.loopStatement_settles _).succeeds _ trivial _ _ executed
      exact settled

/-! ## Whole runs -/

/-- At most one flag is set in a phase. -/
theorem Phase.flags_count (phase : Phase) :
    [phase.flags.returned, phase.flags.broke, phase.flags.continued].count true ≤ 1 := by
  cases phase <;> decide

namespace Program

variable {steps : Nat} {strict : Bool} {tokens : List Token} {console : Console}
  {earlier later : List Moment} {machine : Machine}

theorem initial_shows (strict : Bool) (tokens : List Token) (console : Console) :
    Control.start.Shows (initial strict tokens console) := ⟨rfl, rfl⟩

/-- A run follows the automaton, and one that ends with an open loop has not succeeded. -/
theorem history_follows (steps : Nat) (strict : Bool) (tokens : List Token)
    (console : Console) :
    ∃ last, Control.start.Follows (history steps strict tokens console) last ∧
      last.phase ≠ .leaving ∧
      (0 < last.loops → ∀ report after, run steps strict tokens console =
        (.reported report, after) → report.succeeded = false) := by
  have obeys := Plan.statements_obeys steps (Control.within_running 0)
  have shows := initial_shows strict tokens console
  cases carried : (Plan.statements steps).run (initial strict tokens console) with
  | ok result after =>
      obtain ⟨last, follows, within⟩ := obeys.succeeds shows carried
      exact ⟨last, follows, within.firm,
        fun inLoop => absurd within.loops (Nat.ne_of_gt inLoop)⟩
  | error reason after =>
      obtain ⟨last, follows, firm⟩ := obeys.stops shows carried
      refine ⟨last, follows, firm, fun _ report console' reported => ?_⟩
      rw [run_eq_conclude, carried] at reported
      cases reason with
      | failure cause =>
          cases reported
          rfl
      | undefinedRemainder | outOfSteps => cases reported

/-- Where a run has come to at one of its moments. -/
theorem follows_at {moment : Moment}
    (parts : history steps strict tokens console = earlier ++ moment :: later) :
    ∃ here next last, Control.start.Follows earlier here ∧ here.Shows moment.machine ∧
      here.Step moment.deed.role next ∧ next.Follows later last ∧ last.phase ≠ .leaving ∧
      (0 < last.loops → ∀ report after, run steps strict tokens console =
        (.reported report, after) → report.succeeded = false) := by
  obtain ⟨last, follows, firm, unfinished⟩ := history_follows steps strict tokens console
  rw [parts] at follows
  obtain ⟨here, before, after⟩ := follows.of_append
  cases after with
  | cons step after =>
      exact ⟨here, _, last, before, Plan.shows_at (initial_shows _ _ _) parts before, step,
        after, firm, unfinished⟩

/-- Every machine of a run shows some control. -/
theorem exists_shows (visited : machine ∈ timeline steps strict tokens console) :
    ∃ control : Control, control.Shows machine := by
  rcases List.mem_append.mp visited with atMoment | atEnd
  · obtain ⟨moment, member, rfl⟩ := List.mem_map.mp atMoment
    obtain ⟨earlier, later, parts⟩ := List.append_of_mem member
    obtain ⟨here, _, _, -, shows, -⟩ := follows_at parts
    exact ⟨here, shows⟩
  · rw [List.mem_singleton.mp atEnd]
    obtain ⟨last, follows, -⟩ := history_follows steps strict tokens console
    exact ⟨last, Plan.final_shows (initial_shows _ _ _) follows⟩

/-- A statement is begun only where nothing interrupts the run. -/
theorem flags_of_beginStatement
    (begins : ⟨.beginStatement, machine⟩ ∈ history steps strict tokens console) :
    machine.flags = {} := by
  obtain ⟨earlier, later, parts⟩ := List.append_of_mem begins
  obtain ⟨here, _, _, -, shows, step, -⟩ := follows_at parts
  generalize isRole : (Moment.mk .beginStatement machine).deed.role = role at step
  cases step with
  | runs => exact shows.flags
  | passes outward => rcases outward with rfl | rfl <;> cases isRole
  | _ => cases isRole

/-- What follows a break: nothing is executed until the innermost loop ends, and behind it no
flag is set. Without a loop nothing is executed any more. -/
theorem after_break
    (parts : history steps strict tokens console = earlier ++ ⟨.breakOff, machine⟩ :: later) :
    ((∀ moment ∈ later, moment.deed.role = .idles) ∧
      (0 < openLoops earlier → ∀ report after, run steps strict tokens console =
        (.reported report, after) → report.succeeded = false)) ∨
    ∃ idle ended settled rest, 0 < openLoops earlier ∧
      later = idle ++ ended :: settled :: rest ∧
      (∀ moment ∈ idle, moment.deed.role = .idles) ∧ ended.deed.role = .ends ∧
      settled.deed.role = .settles ∧
      settled.next.flags = ({} : Flags) := by
  obtain ⟨here, next, last, before, -, step, after, firm, unfinished⟩ := follows_at parts
  have opened := before.openLoops_eq
  have breaks : Control.Step here .breaks next := step
  cases breaks with
  | runs ordinary => cases ordinary
  | passes outward => simp at outward
  | @breaks loops =>
      rcases after.of_breaking firm with
        ⟨same, idle⟩ | ⟨outer, idle, ended, settled, rest, rfl, rfl, idles, ends⟩
      · refine .inl ⟨idle, fun inLoop => unfinished ?_⟩
        rw [opened] at inLoop
        rw [same]
        exact inLoop
      · obtain ⟨isEnd, isSettled, path⟩ := ends
        have inLoop : 0 < openLoops earlier := by
          rw [opened]
          exact Nat.succ_pos outer
        have whole : history steps strict tokens console =
            (earlier ++ ⟨.breakOff, machine⟩ :: (idle ++ [ended])) ++ settled :: rest := by
          rw [parts]
          simp
        have leaving :=
          Plan.shows_at (initial_shows _ _ _) whole (before.append (.cons step path))
        have cleared := leaving.next (isSettled ▸ Control.Step.settles)
        exact .inr ⟨idle, ended, settled, rest, inLoop, rfl, idles, isEnd, isSettled,
          cleared.flags⟩

/-- What follows a continue: nothing is executed until the next turn of the innermost loop,
where no flag is set. Without a loop nothing is executed any more. -/
theorem after_continue
    (parts : history steps strict tokens console = earlier ++ ⟨.goOn, machine⟩ :: later) :
    ((∀ moment ∈ later, moment.deed.role = .idles) ∧
      (0 < openLoops earlier → ∀ report after, run steps strict tokens console =
        (.reported report, after) → report.succeeded = false)) ∨
    ∃ idle settled rest, 0 < openLoops earlier ∧ later = idle ++ settled :: rest ∧
      (∀ moment ∈ idle, moment.deed.role = .idles) ∧ settled.deed.role = .settles ∧
      settled.next.flags = ({} : Flags) := by
  obtain ⟨here, next, last, before, -, step, after, firm, unfinished⟩ := follows_at parts
  have opened := before.openLoops_eq
  have continues : Control.Step here .continues next := step
  cases continues with
  | runs ordinary => cases ordinary
  | passes outward => simp at outward
  | @continues loops =>
      rcases after.of_continuing with
        ⟨same, idle⟩ | ⟨idle, settled, rest, isOpen, rfl, idles, isSettled, path⟩
      · refine .inl ⟨idle, fun inLoop => unfinished ?_⟩
        rw [opened] at inLoop
        rw [same]
        exact inLoop
      · have whole : history steps strict tokens console =
            (earlier ++ ⟨.goOn, machine⟩ :: idle) ++ settled :: rest := by
          rw [parts]
          simp
        have continuing :=
          Plan.shows_at (initial_shows _ _ _) whole (before.append (.cons step path))
        obtain ⟨outer, rfl⟩ := Nat.exists_eq_add_one.mpr isOpen
        have cleared := continuing.next (isSettled ▸ Control.Step.resumes)
        exact .inr ⟨idle, settled, rest, opened ▸ isOpen, rfl, idles, isSettled, cleared.flags⟩

/-- What follows a return: nothing is executed any more, and the run ends with the variables,
the lines and the value of the return. -/
theorem after_return {value : Value}
    (parts : history steps strict tokens console =
      earlier ++ ⟨.giveBack value, machine⟩ :: later) :
    (∀ moment ∈ later, moment.deed.role ∈ [Role.idles, .ends, .settles, .moves]) ∧
      (final steps strict tokens console).env = machine.env ∧
      (final steps strict tokens console).console.output = machine.console.output ∧
      (final steps strict tokens console).console.feed = machine.console.feed ∧
      (final steps strict tokens console).returnValue = some value := by
  obtain ⟨here, next, last, before, -, step, after, -⟩ := follows_at parts
  have returns : Control.Step here .returns next := step
  cases returns with
  | runs ordinary => cases ordinary
  | passes outward => simp at outward
  | returns =>
      obtain ⟨_, follows, -⟩ := history_follows steps strict tokens console
      have rests := Plan.timeline_rests (initial_shows strict tokens console) follows
      obtain ⟨more, continues, times⟩ := Plan.timeline_of_history parts
      rw [times, List.pairwise_append, List.pairwise_cons, List.pairwise_cons] at rests
      have given : (Moment.mk (.giveBack value) machine).next.Rests
        (final steps strict tokens console) := by
        have isLast :
            final steps strict tokens console ∈ (Moment.mk (.giveBack value) machine).next ::
              more := by
          rw [← continues]
          exact List.mem_append_right _ (List.mem_singleton_self _)
        rcases List.mem_cons.mp isLast with same | isLater
        · rw [same]
          exact ⟨rfl, rfl, rfl, rfl⟩
        · exact rests.2.1.2.1 _ isLater rfl
      exact ⟨after.of_returning, given.env, given.output, given.feed, given.returnValue⟩

/-- **The flow of control.** On every machine of a run at most one flag is set, and there is a
value to return exactly if the return flag is set. Statements are begun only where no flag is
set. A loop that is carried out leaves neither a break nor a continue behind. After a break in a
loop nothing is executed until that loop, the innermost one, has ended, and then no flag is set;
after a continue the same holds of the next turn of that loop. After a return nothing is
executed, read or written any more, and the run ends with the returned value. -/
theorem control_disciplined (steps : Nat) (strict : Bool) (tokens : List Token)
    (console : Console) :
    (∀ machine ∈ timeline steps strict tokens console,
      [machine.flags.returned, machine.flags.broke, machine.flags.continued].count true ≤ 1 ∧
        machine.returnValue.isSome = machine.flags.returned) ∧
    (∀ machine, ⟨.beginStatement, machine⟩ ∈ history steps strict tokens console →
      machine.flags = {}) ∧
    (∀ budget machine after, (machine.cursor.peek 1).map Token.kind = some .whileKw →
      Exec.statement budget machine = .ok () after →
        after.flags.broke = false ∧ after.flags.continued = false) ∧
    (∀ earlier machine later,
      history steps strict tokens console = earlier ++ ⟨.breakOff, machine⟩ :: later →
      ((∀ moment ∈ later, moment.deed.role = .idles) ∧
        (0 < openLoops earlier →
          ∀ report after, run steps strict tokens console = (.reported report, after) →
            report.succeeded = false)) ∨
      ∃ idle ended settled rest, 0 < openLoops earlier ∧
        later = idle ++ ended :: settled :: rest ∧
        (∀ moment ∈ idle, moment.deed.role = .idles) ∧ ended.deed.role = .ends ∧
        settled.deed.role = .settles ∧ settled.next.flags = ({} : Flags)) ∧
    (∀ earlier machine later,
      history steps strict tokens console = earlier ++ ⟨.goOn, machine⟩ :: later →
      ((∀ moment ∈ later, moment.deed.role = .idles) ∧
        (0 < openLoops earlier →
          ∀ report after, run steps strict tokens console = (.reported report, after) →
            report.succeeded = false)) ∨
      ∃ idle settled rest, 0 < openLoops earlier ∧ later = idle ++ settled :: rest ∧
        (∀ moment ∈ idle, moment.deed.role = .idles) ∧ settled.deed.role = .settles ∧
        settled.next.flags = ({} : Flags)) ∧
    ∀ earlier value machine later,
      history steps strict tokens console = earlier ++ ⟨.giveBack value, machine⟩ :: later →
      (∀ moment ∈ later, moment.deed.role ∈ [Role.idles, .ends, .settles, .moves]) ∧
        (final steps strict tokens console).env = machine.env ∧
        (final steps strict tokens console).console.output = machine.console.output ∧
        (final steps strict tokens console).console.feed = machine.console.feed ∧
        (final steps strict tokens console).returnValue = some value := by
  refine ⟨fun machine visited => ?_, fun _ => flags_of_beginStatement,
    fun _ _ _ => Exec.statement_of_loop, fun _ _ _ => after_break, fun _ _ _ => after_continue,
    fun _ _ _ _ => after_return⟩
  obtain ⟨control, shows⟩ := exists_shows visited
  refine ⟨?_, ?_⟩
  · rw [shows.flags]
    exact control.phase.flags_count
  · rw [shows.returnValue, shows.flags]

/-- A loop that is continued in its first turn, from within a branch, and left in its second
one. Behind it a value is returned, and a line would be written. -/
def leavingTokens : List Token :=
  List.map Symbol.token
    [.sign .marker, .sign .varKw, .name "i", .sign .assign, .literal (.int 0), .sign .marker,
      .sign .marker, .sign .whileKw, .sign .groupOpen, .literal (.boolean true),
      .sign .groupClose, .sign .blockOpen, .sign .marker, .name "i", .sign .plusAssign,
      .literal (.int 1), .sign .marker, .sign .marker, .sign .ifKw, .sign .groupOpen, .name "i",
      .sign .equal, .literal (.int 1), .sign .groupClose, .sign .blockOpen, .sign .marker,
      .sign .continueKw, .sign .marker, .sign .blockClose, .sign .breakKw, .sign .marker,
      .sign .marker, .sign .breakKw, .sign .marker, .sign .blockClose, .sign .breakKw,
      .sign .marker, .sign .marker, .sign .returnKw, .name "i", .sign .marker, .sign .marker,
      .sign .printKw, .sign .groupOpen, .name "i", .sign .groupClose, .sign .marker]

/-- A machine at a token of `leavingTokens`, with a value of the variable. -/
def leaving (i : Int64) (index : Nat) : Machine :=
  { cursor := .atIndex leavingTokens index,
    env := { strict := false, bindings := [("i", .int i)] } }

/-- A history splits at each of its deeds. -/
theorem split_at {moments : List Moment} {index : Nat} {deed : Deed}
    (isDeed : moments[index]?.map Moment.deed = some deed) :
    ∃ machine, moments = moments.take index ++ ⟨deed, machine⟩ :: moments.drop (index + 1) := by
  obtain ⟨⟨_, machine⟩, isMoment, rfl⟩ := Option.map_eq_some_iff.mp isDeed
  obtain ⟨inside, isMoment⟩ := List.getElem?_eq_some_iff.mp isMoment
  refine ⟨machine, ?_⟩
  rw [← isMoment, ← List.drop_eq_getElem_cons inside, List.take_append_drop]

/-- The continue leads to the next turn, the break out of the loop, and the return to the end of
the run. -/
theorem control_disciplined_leaving :
    (∃ earlier machine idle settled rest, history 20 false leavingTokens {} =
        earlier ++ ⟨.goOn, machine⟩ :: (idle ++ settled :: rest) ∧
      (∀ moment ∈ idle, moment.deed.role = .idles) ∧ settled.next.flags = ({} : Flags)) ∧
    (∃ earlier machine idle ended settled rest, history 20 false leavingTokens {} =
        earlier ++ ⟨.breakOff, machine⟩ :: (idle ++ ended :: settled :: rest) ∧
      (∀ moment ∈ idle, moment.deed.role = .idles) ∧ settled.next.flags = ({} : Flags)) ∧
    (final 20 false leavingTokens {}).returnValue = some (.int 2) ∧
    (final 20 false leavingTokens {}).console.output = #[] ∧
    Exec.statement 20 (leaving 0 6) = .ok () (leaving 2 37) ∧
    (leaving 2 37).flags.broke = false := by
  obtain ⟨-, -, loops, breaks, continues, returns⟩ :=
    control_disciplined 20 false leavingTokens {}
  have reported : (run 20 false leavingTokens {}).1 =
      .reported ⟨none, some (.int 2), [("i", .int 2)], []⟩ := by
    decide +kernel
  have written : (final 20 false leavingTokens {}).console.output = #[] := by decide +kernel
  have looped : Exec.statement 20 (leaving 0 6) = .ok () (leaving 2 37) := by decide +kernel
  have continued : (history 20 false leavingTokens {})[64]?.map Moment.deed = some .goOn := by
    decide +kernel
  have broken : (history 20 false leavingTokens {})[118]?.map Moment.deed = some .breakOff := by
    decide +kernel
  have returned : (history 20 false leavingTokens {})[136]?.map Moment.deed =
      some (.giveBack (.int 2)) := by
    decide +kernel
  have inFirst : 0 < openLoops ((history 20 false leavingTokens {}).take 64) := by
    decide +kernel
  have inSecond : 0 < openLoops ((history 20 false leavingTokens {}).take 118) := by
    decide +kernel
  obtain ⟨continuing, continued⟩ := split_at continued
  obtain ⟨breaking, broken⟩ := split_at broken
  obtain ⟨_, returned⟩ := split_at returned
  have succeeded := Prod.eta (run 20 false leavingTokens {})
  rw [reported] at succeeded
  refine ⟨?_, ?_, (returns _ _ _ _ returned).2.2.2.2, written, looped,
    (loops 20 _ _ (by decide +kernel) looped).1⟩
  · rcases continues _ _ _ continued with
      ⟨-, unfinished⟩ | ⟨idle, settled, rest, -, parts, idles, -, clear⟩
    · cases unfinished inFirst _ _ succeeded.symm
    · rw [parts] at continued
      exact ⟨_, continuing, idle, settled, rest, continued, idles, clear⟩
  · rcases breaks _ _ _ broken with
      ⟨-, unfinished⟩ | ⟨idle, ended, settled, rest, -, parts, idles, -, -, clear⟩
    · cases unfinished inSecond _ _ succeeded.symm
    · rw [parts] at broken
      exact ⟨_, breaking, idle, ended, settled, rest, broken, idles, clear⟩

end Program

end ToonScript
