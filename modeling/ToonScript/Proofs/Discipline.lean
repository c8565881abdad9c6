import ToonScript.Proofs.Contract

/-!
# Disciplines

Many laws of a run say the same thing of all its machines, and need to know a little more:
something of the places that the cursor is moved to, something of the values that are bound,
returned and written, something of the words of names and messages, something of the reasons for
which the run stops. A `Discipline` is such a choice. It is lawful if the deeds keep it: a deed
that moves to a known place and uses known values and words leads from a machine within the
discipline to one within it, gives known places, values and words, and stops only for a known
reason.

A lawful discipline is kept by every run (`Discipline.Lawful.statements`). The walk through the
plans is done here, once for all disciplines.
-/

set_option autoImplicit false

namespace ToonScript

/-- What is to be known of a run: of every machine, of the machines within a statement from its
first marker on, of the places to which the cursor is moved, of the values, of the names and the
words of messages, and of the machine where the run stops before its end. -/
structure Discipline where
  machine : Machine → Prop
  within : Machine → Prop
  place : Cursor → Prop
  value : Value → Prop
  word : Text → Prop
  stopped : Stop → Machine → Prop

namespace Discipline

/-- The deeds that move to known places, combine, bind, return and write known values, and say
known words. The values are combined as an assignment sign says. -/
def Allows (discipline : Discipline) : Deed → Prop
  | .moveTo cursor => discipline.place cursor
  | .expect _ context | .expectName context => discipline.word context
  | .combine name operand assignment =>
      discipline.word name ∧ discipline.value operand ∧
        ∃ kind, Exec.assignment? kind = some assignment
  | .declare name value | .assign name value => discipline.word name ∧ discipline.value value
  | .giveBack value | .write value => discipline.value value
  | .note event => discipline.word event.message
  | _ => True

/-- The places, values and names that a deed gives are known. -/
def Gives (discipline : Discipline) : (deed : Deed) → deed.Result → Prop
  | .expectName _, name => discipline.word name
  | .peek _, token => ∀ ahead : Token, token = some ahead → discipline.word ahead.lexeme
  | .closing _ _ _, cursor | .place, cursor => discipline.place cursor
  | .evaluate, value | .combine _ _ _, value => discipline.value value
  | .valueOf _, current => ∀ value : Value, current = some value → discipline.value value
  | _, _ => True

/-- A discipline that deeds keep, and that knows all the reasons for which plans stop by
themselves. -/
structure Lawful (discipline : Discipline) : Prop where
  words : ∀ s : String, discipline.word s
  append : ∀ {text more : Text}, discipline.word text → discipline.word more →
    discipline.word (text ++ more)
  machine_of_within : ∀ {machine}, discipline.within machine → discipline.machine machine
  opens : ∀ {context machine u after}, discipline.machine machine →
    Exec.expect .marker context machine = .ok u after → discipline.within after
  unopened : ∀ {context machine reason after}, discipline.word context →
    discipline.machine machine →
    Exec.expect .marker context machine = .error reason after → discipline.stopped reason after
  succeeds : ∀ {deed machine result after}, discipline.Allows deed → discipline.within machine →
    deed.perform machine = .ok result after → discipline.within after ∧
      discipline.Gives deed result
  stops : ∀ {deed machine reason after}, discipline.Allows deed → discipline.within machine →
    deed.perform machine = .error reason after → discipline.stopped reason after
  budget : ∀ {machine}, discipline.machine machine → discipline.stopped .outOfSteps machine
  shape : ∀ {problem machine}, discipline.word problem.message → discipline.within machine →
    discipline.stopped (.failure (.structural problem (machine.cursor.peek 0))) machine
  undeclared : ∀ {name machine}, discipline.word name → discipline.within machine →
    discipline.stopped (.failure (.undeclared name)) machine
  undeclaredInput : ∀ {name machine}, discipline.word name → discipline.within machine →
    discipline.stopped (.failure (.undeclaredInput name)) machine
  condition : ∀ {ty machine}, discipline.within machine →
    discipline.stopped (.failure (.condition ty)) machine
  entered : ∀ {current value : Value} {line : Text}, discipline.value current →
    Value.ofInput current.ty line = .ok value → discipline.value value
  refused : ∀ {current : Value} {line name : Text} {error : InputError} {machine},
    discipline.value current →
    discipline.word name → discipline.within machine →
    Value.ofInput current.ty line = .error error →
    discipline.stopped (.failure (.input name error)) machine

/-- What is known at each moment. -/
def During (discipline : Discipline) (moment : Moment) : Prop :=
  discipline.machine moment.machine ∧ discipline.Allows moment.deed

variable {α β : Type}

/-- A plan that keeps a discipline within a statement and gives something good. -/
def Keeps (discipline : Discipline) (plan : Plan α) (good : α → Prop) : Prop :=
  plan.Meets discipline.within discipline.During (fun a after => discipline.within after ∧
    good a) discipline.stopped

namespace Lawful

variable {discipline : Discipline} {good : α → Prop} {goodNext : β → Prop}

theorem bind {plan : Plan α} {next : α → Plan β} (keeps : discipline.Keeps plan good)
    (keepsNext : ∀ a, good a → discipline.Keeps (next a) goodNext) :
    discipline.Keeps (plan >>= next) goodNext := by
  refine Plan.Meets.bind keeps fun a => ?_
  constructor
  · rintro machine ⟨within, isGood⟩
    exact (keepsNext a isGood).moments machine within
  · rintro machine ⟨within, isGood⟩
    exact (keepsNext a isGood).succeeds machine within
  · rintro machine ⟨within, isGood⟩
    exact (keepsNext a isGood).stops machine within

theorem pure {a : α} (isGood : good a) : discipline.Keeps (pure a : Plan α) good :=
  .pure fun _ within => ⟨within, isGood⟩

theorem stop {reason : Stop}
    (known : ∀ machine, discipline.within machine → discipline.stopped reason machine) :
    discipline.Keeps (.stop reason : Plan α) good :=
  .stop known

variable (lawful : discipline.Lawful)

include lawful

theorem perform {deed : Deed} (allowed : discipline.Allows deed) :
    discipline.Keeps (.perform deed) (discipline.Gives deed) := by
  refine .perform (fun _ within => ⟨lawful.machine_of_within within, allowed⟩) ?_ ?_
  · intro machine within result final performed
    exact lawful.succeeds allowed within performed
  · intro machine within reason final performed
    exact lawful.stops allowed within performed

theorem step {deed : Deed} {next : deed.Result → Plan β} (allowed : discipline.Allows deed)
    (keepsNext : ∀ result, discipline.Gives deed result →
      discipline.Keeps (next result) goodNext) :
    discipline.Keeps (.perform deed >>= next) goodNext :=
  bind (lawful.perform allowed) keepsNext

/-- After a look ahead it is known what stands there. -/
theorem look {offset : Nat} {next : Option Token → Plan β}
    (keepsNext : ∀ token, (next token).Meets
      (fun machine => discipline.within machine ∧ machine.cursor.peek offset = token)
        discipline.During
      (fun b after => discipline.within after ∧ goodNext b) discipline.stopped) :
    discipline.Keeps (.perform (.peek offset) >>= next) goodNext := by
  refine Plan.Meets.bind (.perform ?_ ?_ ?_) keepsNext
  · exact fun _ within => ⟨lawful.machine_of_within within, trivial⟩
  · intro machine within token final looked
    cases looked
    exact ⟨within, rfl⟩
  · intro machine within reason final looked
    cases looked

end Lawful

/-! ## Statements

A plan is followed deed by deed; what a deed gives is what the next deed needs. -/

namespace Lawful

variable {discipline : Discipline} (lawful : discipline.Lawful)

include lawful

/-- What is said of a variable and its value. -/
theorem said {name : Text} (named : discipline.word name) (verb : String) (value : Value) :
    discipline.word (verb ++ name ++ " = " ++ value.describe) :=
  lawful.append (lawful.append (lawful.append (lawful.words _) named) (lawful.words _))
    (lawful.words _)

theorem printStatement : discipline.Keeps .printStatement fun _ => True :=
  lawful.step trivial fun _ _ => lawful.step (lawful.words _) fun _ _ =>
    lawful.step trivial fun _ known =>
    lawful.step (lawful.words _) fun _ _ => lawful.perform known

theorem declarationStatement : discipline.Keeps .declarationStatement fun _ => True := by
  refine lawful.step trivial fun _ _ => lawful.step (lawful.words _) fun name named => ?_
  have context : discipline.word ("after variable name " ++ name ++ " in declaration") :=
    lawful.append (lawful.append (lawful.words _) named) (lawful.words _)
  exact lawful.step context fun _ _ => lawful.step trivial fun value known =>
    lawful.step ⟨named, known⟩ fun _ _ => lawful.perform (lawful.said named "declare " value)

theorem assignTo {name : Text} (named : discipline.word name) {assignment : Exec.Assignment}
    (signed : ∃ kind, Exec.assignment? kind = some assignment) :
    discipline.Keeps (.assignTo name assignment) fun _ => True :=
  lawful.step trivial fun _ knownOperand => lawful.step ⟨named, knownOperand, signed⟩
    fun value known =>
    lawful.step ⟨named, known⟩ fun _ _ => lawful.perform (lawful.said named "assign " value)

theorem assignmentStatement {name : Text} (named : discipline.word name)
    {assignment : Exec.Assignment} (signed : ∃ kind, Exec.assignment? kind = some assignment) :
    discipline.Keeps (.assignmentStatement name assignment) fun _ => True := by
  refine lawful.step trivial fun current _ => ?_
  split
  · exact lawful.step trivial fun _ _ => lawful.step trivial fun _ _ =>
      lawful.assignTo named signed
  · exact stop fun _ => lawful.undeclared named

theorem identifierStatement : discipline.Keeps .identifierStatement fun _ => True := by
  have dropped : discipline.Keeps (do let _ ← Plan.perform .evaluate) fun _ => True :=
    lawful.step trivial fun _ _ => pure trivial
  refine lawful.step trivial fun target named => lawful.step trivial fun sign _ => ?_
  cases target with
  | none => exact dropped
  | some target =>
      cases signed : sign.bind fun sign => Exec.assignment? sign.kind with
      | none => exact dropped
      | some assignment =>
          obtain ⟨token, -, known⟩ := Option.bind_eq_some_iff.mp signed
          exact lawful.assignmentStatement (named target rfl) ⟨token.kind, known⟩

theorem inputStatement : discipline.Keeps .inputStatement fun _ => True := by
  refine lawful.step trivial fun _ _ => lawful.step (lawful.words _) fun _ _ =>
    lawful.step (lawful.words _) fun name named => lawful.step (lawful.words _) fun _ _ =>
      lawful.step trivial fun current knownCurrent => ?_
  cases current with
  | none => exact stop fun _ => lawful.undeclaredInput named
  | some current =>
      have known : discipline.value current := knownCurrent current rfl
      refine lawful.step trivial fun line _ => ?_
      cases converted : Value.ofInput current.ty line with
      | error error => exact stop fun _ within => lawful.refused known named within converted
      | ok value =>
          exact lawful.step ⟨named, lawful.entered known converted⟩ fun _ _ =>
            lawful.perform (lawful.said named "input " value)

theorem returnStatement : discipline.Keeps .returnStatement fun _ => True :=
  lawful.step trivial fun _ _ => lawful.step trivial fun _ known => lawful.step known fun _ _ =>
    lawful.perform (lawful.words _)

theorem breakStatement : discipline.Keeps .breakStatement fun _ => True :=
  lawful.step trivial fun _ _ => lawful.step trivial fun _ _ => lawful.perform (lawful.words _)

theorem continueStatement : discipline.Keeps .continueStatement fun _ => True :=
  lawful.step trivial fun _ _ => lawful.step trivial fun _ _ => lawful.perform (lawful.words _)

variable {block : Plan Unit} (keepsBlock : discipline.Keeps block fun _ => True)

include keepsBlock

theorem branch (taken : Bool) : discipline.Keeps (.branch block taken) fun _ => True := by
  cases taken with
  | true => exact lawful.step trivial fun _ _ => keepsBlock
  | false => exact lawful.perform trivial

theorem elseBranch (taken : Bool) :
    discipline.Keeps (.elseBranch block taken) fun _ => True := by
  refine lawful.step trivial fun next _ => ?_
  split
  · exact lawful.step trivial fun _ _ => lawful.step (lawful.words _) fun _ _ =>
      lawful.branch keepsBlock taken
  · exact pure trivial

theorem branches (condition : Value) :
    discipline.Keeps (.branches block condition) fun _ => True := by
  cases condition with
  | boolean holds =>
      have said : discipline.word (Event.branched holds).message := by
        refine lawful.append (lawful.words _) ?_
        cases holds <;> exact lawful.words _
      exact lawful.step (lawful.words _) fun _ _ => lawful.step said fun _ _ =>
        bind (lawful.branch keepsBlock holds) fun _ _ =>
          bind (lawful.elseBranch keepsBlock (!holds)) fun _ _ =>
            lawful.perform (lawful.words _)
  | _ => exact stop fun _ => lawful.condition

theorem conditionalStatement : discipline.Keeps (.conditionalStatement block) fun _ => True :=
  lawful.step trivial fun _ _ => lawful.step (lawful.words _) fun _ _ =>
    lawful.step trivial fun condition _ =>
    lawful.step (lawful.words _) fun _ _ => lawful.branches keepsBlock condition

omit keepsBlock

variable {turns : Cursor → Cursor → Plan Nat}
  (keepsTurns : ∀ condition body, discipline.place condition → discipline.place body →
    discipline.Keeps (turns condition body) fun _ => True)

include keepsTurns

theorem loopStatement : discipline.Keeps (.loopStatement turns) fun _ => True := by
  refine lawful.step trivial fun _ _ => lawful.step (lawful.words _) fun _ _ =>
    lawful.step trivial fun condition knownCondition => ?_
  refine lawful.step trivial fun _ knownAfterCondition =>
    lawful.step knownAfterCondition fun _ _ =>
    lawful.step (lawful.words _) fun _ _ => lawful.step trivial fun body knownBody => ?_
  refine lawful.step trivial fun _ knownAfter => ?_
  refine bind (keepsTurns condition body knownCondition knownBody) fun _ _ => ?_
  exact lawful.step (lawful.words _) fun _ _ => lawful.step trivial fun _ _ =>
    lawful.step knownAfter fun _ _ => lawful.perform (lawful.words _)

include keepsBlock

theorem statementBody : discipline.Keeps (.statementBody block turns) fun _ => True := by
  refine lawful.look fun next => ?_
  -- Only the last case needs to know which token stands ahead: the failure points at it.
  have forget : ∀ {plan : Plan Unit}, discipline.Keeps plan (fun _ => True) → plan.Meets
      (fun machine => discipline.within machine ∧ machine.cursor.peek 0 = next)
      discipline.During
      (fun _ after => discipline.within after ∧ True) discipline.stopped :=
    fun keeps => keeps.mono (fun _ known => known.1) (fun _ => id) (fun _ _ => id) fun _ _ => id
  split
  · exact forget lawful.printStatement
  · exact forget lawful.declarationStatement
  · exact forget lawful.identifierStatement
  · exact forget (lawful.conditionalStatement keepsBlock)
  · exact forget (lawful.loopStatement keepsTurns)
  · exact forget lawful.inputStatement
  · exact forget lawful.returnStatement
  · exact forget lawful.breakStatement
  · exact forget lawful.continueStatement
  · refine .stop ?_
    rintro machine ⟨within, rfl⟩
    exact lawful.shape (lawful.words _) within

end Lawful

/-! ## Runs -/

namespace Lawful

variable {discipline : Discipline} (lawful : discipline.Lawful)

include lawful

/-- The first marker leads into the statement. -/
theorem opened {next : Plan Unit} {context : Text} (worded : discipline.word context)
    (keepsNext : discipline.Keeps next fun _ => True) :
    (do Plan.perform .beginStatement; Plan.perform (.expect .marker context); next).Meets
      discipline.machine discipline.During (fun _ => discipline.within) discipline.stopped := by
  have begins : (Plan.perform .beginStatement).Meets discipline.machine discipline.During
      (fun _ => discipline.machine) discipline.stopped := by
    refine .perform (fun _ known => ⟨known, trivial⟩) ?_ ?_
    · intro machine known result final performed
      cases performed
      exact known
    · intro machine known reason final performed
      cases performed
  have opens : (Plan.perform (.expect .marker context)).Meets discipline.machine
      discipline.During (fun _ => discipline.within) discipline.stopped :=
    .perform (fun _ known => ⟨known, worded⟩) (fun _ known _ _ => lawful.opens known)
      fun _ known _ _ => lawful.unopened worded known
  refine begins.bind fun _ => opens.bind fun _ => ?_
  exact keepsNext.mono (fun _ => id) (fun _ => id) (fun _ _ known => known.1) fun _ _ => id

mutual

/-- A statement is begun on any machine of the discipline. -/
theorem statement (steps : Nat) :
    (Plan.statement steps).Meets discipline.machine discipline.During
      (fun _ => discipline.within) discipline.stopped := by
  cases steps with
  | zero =>
      rw [Plan.statement]
      exact .stop fun _ => lawful.budget
  | succ steps =>
      rw [Plan.statement]
      refine lawful.opened (lawful.words _)
        (bind (lawful.statementBody (block steps) ?_) fun _ _ =>
          lawful.perform (lawful.words _))
      intro condition body knownCondition knownBody
      exact turns steps knownCondition knownBody 0

theorem block (steps : Nat) : discipline.Keeps (Plan.block steps) fun _ => True := by
  cases steps with
  | zero =>
      rw [Plan.block]
      exact stop fun _ within => lawful.budget (lawful.machine_of_within within)
  | succ steps =>
      have again : discipline.Keeps (do Plan.statement steps; Plan.block steps)
        fun _ => True := by
        have first : discipline.Keeps (Plan.statement steps) fun _ => True :=
          (statement steps).mono (fun _ => lawful.machine_of_within) (fun _ => id)
            (fun _ _ within => ⟨within, trivial⟩) fun _ _ => id
        exact bind first fun _ _ => block steps
      rw [Plan.block]
      refine lawful.look fun next => ?_
      cases next with
      | none =>
          refine .stop ?_
          rintro machine ⟨within, ended⟩
          rw [← ended]
          exact lawful.shape (lawful.words _) within
      | some token =>
          dsimp only
          refine Plan.Meets.mono ?_ (fun _ known => known.1) (fun _ => id)
            (fun _ _ => id) fun _ _ => id
          split
          · exact lawful.perform trivial
          · refine lawful.step trivial fun flags _ => ?_
            split
            · exact lawful.perform trivial
            · exact again

theorem turns (steps : Nat) {condition body : Cursor}
    (knownCondition : discipline.place condition) (knownBody : discipline.place body)
    (count : Nat) : discipline.Keeps (Plan.turns steps condition body count) fun _ => True := by
  cases steps with
  | zero =>
      rw [Plan.turns]
      exact stop fun _ within => lawful.budget (lawful.machine_of_within within)
  | succ steps =>
      rw [Plan.turns]
      refine lawful.step trivial fun _ _ => lawful.step knownCondition fun _ _ =>
        lawful.step trivial fun value _ => lawful.step (lawful.words _) fun _ _ => ?_
      split
      · refine lawful.step knownBody fun _ _ => lawful.step trivial fun _ _ =>
          bind (block steps) fun _ _ => lawful.step trivial fun flags _ => ?_
        split
        · exact pure trivial
        · exact turns steps knownCondition knownBody (count + 1)
      · exact pure trivial
      · exact lawful.step (lawful.words _) fun _ _ => pure trivial

end

/-- **A lawful discipline is kept by every run**, whether it succeeds or stops. -/
theorem statements (steps : Nat) :
    (Plan.statements steps).Meets discipline.machine discipline.During
      (fun _ => discipline.machine) discipline.stopped := by
  have observes : ∀ deed : Deed, discipline.Allows deed →
      (∀ machine, ∃ result, deed.perform machine = .ok result machine) →
      (Plan.perform deed).Meets discipline.machine discipline.During
        (fun _ => discipline.machine) discipline.stopped := by
    intro deed allowed still
    refine .perform (fun _ known => ⟨known, allowed⟩) ?_ ?_
    · intro machine known result final performed
      obtain ⟨seen, unchanged⟩ := still machine
      cases performed.symm.trans unchanged
      exact known
    · intro machine known reason final performed
      obtain ⟨seen, unchanged⟩ := still machine
      cases performed.symm.trans unchanged
  induction steps with
  | zero => exact .stop fun _ => lawful.budget
  | succ steps ih =>
      refine (observes (.peek 0) trivial fun _ => ⟨_, rfl⟩).bind fun next => ?_
      refine (observes .flags trivial fun _ => ⟨_, rfl⟩).bind fun flags => ?_
      split
      · exact .pure fun _ => id
      · refine (lawful.statement steps).bind fun _ =>
          ih.mono (fun _ => ?_) (fun _ => id) (fun _ _ => id) fun _ _ => id
        exact lawful.machine_of_within

end Lawful

end Discipline

end ToonScript
