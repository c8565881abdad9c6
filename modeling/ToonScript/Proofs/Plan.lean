import ToonScript.Machine.Plan
import ToonScript.Proofs.Execution

/-!
# Plans and histories

Many laws of the language are about the way of an execution: which block was entered, which
value a variable had when it was assigned, what was written before a failure. `Plan.history`
lists the moments of carrying a plan out: each deed that was begun, with the machine at that
time. A deed that stops the execution is the last moment.

Carrying out the plan of a statement is executing the statement (`Plan.run_statement`,
`Plan.run_block`, `Plan.run_turns`, `Plan.run_statements`). What holds of the deeds and is kept
by sequences therefore holds of every execution, by one induction over plans.
-/

set_option autoImplicit false

namespace ToonScript

/-- A deed that is begun, and the machine on which it is begun. -/
structure Moment where
  deed : Deed
  machine : Machine
deriving DecidableEq

namespace Plan

variable {α β : Type}

/-- The moments of carrying a plan out. -/
def history : Plan α → Machine → List Moment
  | done _, _ | stop _, _ => []
  | act deed next, machine =>
    ⟨deed, machine⟩ ::
      match deed.perform machine with
      | .ok result after => (next result).history after
      | .error _ _ => []

@[simp] theorem run_pure (result : α) : (pure result : Plan α).run = pure result := rfl

@[simp] theorem run_stop (reason : Stop) : (stop reason : Plan α).run = throw reason := rfl

@[simp] theorem run_act (deed : Deed) (next : deed.Result → Plan α) :
    (act deed next).run = deed.perform >>= fun result => (next result).run := rfl

theorem run_perform (deed : Deed) : (perform deed).run = deed.perform := bind_pure _

/-- Carrying out one plan after another is one execution after another. -/
theorem run_bind (plan : Plan α) (next : α → Plan β) :
    (plan >>= next).run = plan.run >>= fun result => (next result).run := by
  induction plan with
  | done result => rfl
  | stop reason => rfl
  | act deed more ih =>
      have opened : (act deed more >>= next).run =
          deed.perform >>= fun result => (more result >>= next).run := rfl
      simp only [opened, ih, run_act, bind_assoc]

/-- A plan followed by another one is carried out as an execution followed by another one. -/
theorem run_bind_of_run {plan : Plan α} {next : α → Plan β} {first : Exec α} {more : α → Exec β}
    (runFirst : plan.run = first) (runMore : ∀ result, (next result).run = more result) :
    (plan >>= next).run = first >>= more := by
  rw [run_bind, runFirst, funext runMore]

/-- A deed followed by a plan is carried out as the deed followed by an execution. -/
theorem run_perform_bind {deed : Deed} {next : deed.Result → Plan α}
    {more : deed.Result → Exec α} (runMore : ∀ result, (next result).run = more result) :
    (perform deed >>= next).run = deed.perform >>= more :=
  run_bind_of_run (run_perform deed) runMore

theorem history_act_of_ok {deed : Deed} {next : deed.Result → Plan α} {machine after : Machine}
    {result : deed.Result} (performed : deed.perform machine = .ok result after) :
    (act deed next).history machine = ⟨deed, machine⟩ :: (next result).history after := by
  simp only [history, performed]

theorem history_act_of_error {deed : Deed} {next : deed.Result → Plan α}
    {machine after : Machine} {reason : Stop}
    (performed : deed.perform machine = .error reason after) :
    (act deed next).history machine = [⟨deed, machine⟩] := by
  simp only [history, performed]

theorem history_bind_of_ok {plan : Plan α} {next : α → Plan β}
    {machine after : Machine} {result : α} (carried : plan.run machine = .ok result after) :
    (plan >>= next).history machine = plan.history machine ++ (next result).history after := by
  induction plan generalizing machine with
  | done given =>
      cases carried
      rfl
  | stop reason => cases carried
  | act deed more ih =>
      obtain ⟨given, middle, performed, ended⟩ := bind_eq_ok.mp carried
      rw [history_act_of_ok performed, List.cons_append, ← ih given ended]
      exact history_act_of_ok performed

theorem history_bind_of_error {plan : Plan α} {next : α → Plan β} {machine after : Machine}
    {reason : Stop} (carried : plan.run machine = .error reason after) :
    (plan >>= next).history machine = plan.history machine := by
  induction plan generalizing machine with
  | done given => cases carried
  | stop reason => rfl
  | act deed more ih =>
      rcases bind_eq_error.mp carried with failed | ⟨given, middle, performed, ended⟩
      · rw [history_act_of_error failed]
        exact history_act_of_error failed
      · rw [history_act_of_ok performed, ← ih given ended]
        exact history_act_of_ok performed

/-- The machine on which carrying a plan out ends, whether it succeeds or stops. -/
def final (plan : Plan α) (machine : Machine) : Machine :=
  match plan.run machine with
  | .ok _ after | .error _ after => after

theorem final_of_ok {plan : Plan α} {machine after : Machine} {result : α}
    (carried : plan.run machine = .ok result after) : plan.final machine = after := by
  simp only [final, carried]

theorem final_of_error {plan : Plan α} {machine after : Machine} {reason : Stop}
    (carried : plan.run machine = .error reason after) : plan.final machine = after := by
  simp only [final, carried]

theorem final_act_of_ok {deed : Deed} {next : deed.Result → Plan α} {machine after : Machine}
    {result : deed.Result} (performed : deed.perform machine = .ok result after) :
    (act deed next).final machine = (next result).final after := by
  have continued : (act deed next).run machine = (next result).run after := bind_of_ok performed
  simp only [final, continued]

theorem final_act_of_error {deed : Deed} {next : deed.Result → Plan α} {machine after : Machine}
    {reason : Stop} (performed : deed.perform machine = .error reason after) :
    (act deed next).final machine = after :=
  final_of_error (bind_of_error performed)

theorem final_perform_of_ok {deed : Deed} {machine after : Machine} {result : deed.Result}
    (performed : deed.perform machine = .ok result after) :
    (perform deed).final machine = after :=
  final_act_of_ok performed

theorem final_perform_of_error {deed : Deed} {machine after : Machine} {reason : Stop}
    (performed : deed.perform machine = .error reason after) :
    (perform deed).final machine = after :=
  final_act_of_error performed

theorem final_bind_of_ok {plan : Plan α} {next : α → Plan β}
    {machine after : Machine} {result : α} (carried : plan.run machine = .ok result after) :
    (plan >>= next).final machine = (next result).final after := by
  simp only [final, run_bind, bind_of_ok carried]

theorem final_bind_of_error {plan : Plan α} {next : α → Plan β} {machine after : Machine}
    {reason : Stop} (carried : plan.run machine = .error reason after) :
    (plan >>= next).final machine = after := by
  simp only [final, run_bind, bind_of_error carried]

/-- What every deed keeps, from the machine before it to the machine after it, a plan keeps from
its begin to its end. -/
theorem final_kept {kept : Machine → Machine → Prop} (same : ∀ machine, kept machine machine)
    (joined : ∀ {start middle after}, kept start middle → kept middle after → kept start after)
    (deeds : ∀ deed machine, kept machine ((perform deed).final machine)) (plan : Plan α)
    (machine : Machine) : kept machine (plan.final machine) := by
  induction plan generalizing machine with
  | done result => exact same machine
  | stop reason => exact same machine
  | act deed next ih =>
      have first := deeds deed machine
      cases performed : deed.perform machine with
      | ok result after =>
          rw [final_perform_of_ok performed] at first
          rw [final_act_of_ok performed]
          exact joined first (ih result after)
      | error reason after =>
          rw [final_perform_of_error performed] at first
          rw [final_act_of_error performed]
          exact first

section Observation

variable {machine : Machine}

theorem run_beginStatement_bind (plan : Plan α) :
    (perform .beginStatement >>= fun _ => plan).run = plan.run := rfl

theorem run_enterBlock_bind (plan : Plan α) :
    (perform .enterBlock >>= fun _ => plan).run = plan.run := rfl

theorem run_place_bind (next : Cursor → Plan α) :
    (perform .place >>= next).run machine = (next machine.cursor).run machine := rfl

theorem run_peek_bind (offset : Nat) (next : Option Token → Plan α) :
    (perform (.peek offset) >>= next).run machine =
      (next (machine.cursor.peek offset)).run machine := rfl

theorem run_valueOf_bind (name : Text) (next : Option Value → Plan α) :
    (perform (.valueOf name) >>= next).run machine =
      (next (machine.env.bindings.get? name)).run machine := rfl

theorem run_flags_bind (next : Flags → Plan α) :
    (perform .flags >>= next).run machine = (next machine.flags).run machine := rfl

end Observation

/-! ## Carrying the plans out -/

theorem run_printStatement : printStatement.run = Exec.printStatement := by
  refine run_perform_bind fun _ => run_perform_bind fun _ => run_perform_bind fun value =>
    run_perform_bind fun _ => ?_
  exact run_perform (.write value)

theorem run_declarationStatement : declarationStatement.run = Exec.declarationStatement := by
  refine run_perform_bind fun _ => run_perform_bind fun name => run_perform_bind fun _ =>
    run_perform_bind fun value => run_perform_bind fun _ => ?_
  exact run_perform (.note (.declared name value))

theorem run_assignTo (name : Text) (assignment : Exec.Assignment) :
    (assignTo name assignment).run = Exec.assignTo name assignment := by
  refine run_perform_bind fun operand => run_perform_bind fun value =>
    run_perform_bind fun _ => ?_
  exact run_perform (.note (.assigned name value))

theorem run_assignmentStatement (name : Text) (assignment : Exec.Assignment)
    (machine : Machine) :
    (assignmentStatement name assignment).run machine =
      (if machine.env.declares name then do
        Exec.pass
        Exec.pass
        Exec.assignTo name assignment
      else Exec.fail (.undeclared name)) machine := by
  rw [assignmentStatement, run_valueOf_bind]
  by_cases declared : machine.env.declares name
  · have known : (machine.env.bindings.get? name).isSome := declared
    simp only [known, declared, ↓reduceIte]
    exact congrFun (run_perform_bind fun _ => run_perform_bind fun _ =>
      run_assignTo name assignment) machine
  · have unknown : ¬(machine.env.bindings.get? name).isSome := declared
    simp only [unknown, declared, Bool.false_eq_true, ↓reduceIte]
    rfl

theorem run_identifierStatement : identifierStatement.run = Exec.identifierStatement := by
  funext machine
  have dropped : (do let _ ← perform .evaluate).run machine =
      (do let _ ← Exec.evaluate) machine :=
    congrFun (run_perform_bind fun _ => rfl) machine
  obtain ⟨⟨last, rest⟩, env, flags, returnValue, console⟩ := machine
  rw [identifierStatement, run_peek_bind, run_peek_bind]
  match rest with
  | [] => exact dropped
  | [target] => exact dropped
  | target :: sign :: rest =>
      simp only [Exec.identifierStatement, Cursor.peek, List.getElem?_cons_zero,
        List.getElem?_cons_succ, Option.bind_some, get_bind]
      cases Exec.assignment? sign.kind with
      | some assignment => exact run_assignmentStatement target.lexeme assignment _
      | none => exact dropped

theorem run_inputStatement : inputStatement.run = Exec.inputStatement := by
  refine run_perform_bind fun _ => run_perform_bind fun _ => run_perform_bind fun name =>
    run_perform_bind fun _ => ?_
  funext machine
  rw [run_valueOf_bind, get_bind]
  cases machine.env.bindings.get? name with
  | none => rfl
  | some current =>
      refine congrFun (run_perform_bind fun line => ?_) machine
      cases Value.ofInput current.ty line with
      | error error => rfl
      | ok value => exact run_perform_bind fun _ => run_perform (.note (.entered name value))

theorem run_returnStatement : returnStatement.run = Exec.returnStatement := by
  refine run_perform_bind fun _ => run_perform_bind fun value => run_perform_bind fun _ => ?_
  exact run_perform (.note (.returned value))

theorem run_breakStatement : breakStatement.run = Exec.breakStatement :=
  run_perform_bind fun _ => run_perform_bind fun _ => run_perform (.note .broke)

theorem run_continueStatement : continueStatement.run = Exec.continueStatement :=
  run_perform_bind fun _ => run_perform_bind fun _ => run_perform (.note .continued)

section Composed

variable {block : Plan Unit} {runBlock : Exec Unit}

theorem run_branch (blockRuns : block.run = runBlock) (taken : Bool) :
    (branch block taken).run = Exec.branch runBlock taken := by
  cases taken with
  | true =>
      rw [← blockRuns]
      exact run_enterBlock_bind block
  | false => exact run_perform .skipBlock

theorem run_elseBranch (blockRuns : block.run = runBlock) (taken : Bool) :
    (elseBranch block taken).run = Exec.elseBranch runBlock taken := by
  have otherwise : (do
      perform .pass
      perform (.expect .blockOpen "to open 'else' block")
      branch block taken).run = (do
      Exec.pass
      Exec.expect .blockOpen "to open 'else' block"
      Exec.branch runBlock taken) :=
    run_perform_bind fun _ => run_perform_bind fun _ => run_branch blockRuns taken
  funext machine
  obtain ⟨⟨last, rest⟩, env, flags, returnValue, console⟩ := machine
  rw [elseBranch, run_peek_bind, Exec.elseBranch, get_bind]
  cases rest with
  | nil => rfl
  | cons token rest =>
      by_cases isElse : token.kind = .elseKw
      · simp only [Cursor.peek, Cursor.check, List.getElem?_cons_zero, Option.map_some, isElse,
          BEq.rfl, ↓reduceIte]
        rw [otherwise]
      · have differs : (token.kind == .elseKw) = false := by simpa using isElse
        simp only [Cursor.peek, Cursor.check, List.getElem?_cons_zero, Option.map_some,
          Option.some.injEq, isElse, differs, Bool.false_eq_true, ↓reduceIte]
        rfl

theorem run_branches (blockRuns : block.run = runBlock) (condition : Value) :
    (branches block condition).run = Exec.branches runBlock condition := by
  cases condition with
  | boolean holds =>
      refine run_perform_bind fun _ => run_perform_bind fun _ => ?_
      refine run_bind_of_run (run_branch blockRuns holds) fun _ => ?_
      refine run_bind_of_run (run_elseBranch blockRuns _) fun _ => ?_
      exact run_perform (.expect .breakKw "after 'if'/'else' structure")
  | _ => rfl

theorem run_conditionalStatement (blockRuns : block.run = runBlock) :
    (conditionalStatement block).run = Exec.conditionalStatement runBlock :=
  run_perform_bind fun _ => run_perform_bind fun _ => run_perform_bind fun condition =>
    run_perform_bind fun _ => run_branches blockRuns condition

variable {turns : Cursor → Cursor → Plan Nat} {runTurns : Cursor → Cursor → Exec Nat}

theorem run_loopStatement
    (turnsRun : ∀ condition body, (turns condition body).run = runTurns condition body) :
    (loopStatement turns).run = Exec.loopStatement runTurns := by
  refine run_perform_bind fun _ => run_perform_bind fun _ => ?_
  funext machine
  rw [run_place_bind, get_bind]
  refine congrFun (run_perform_bind fun afterCondition => ?_) machine
  refine run_perform_bind fun _ => run_perform_bind fun _ => ?_
  funext machine
  rw [run_place_bind, get_bind]
  refine congrFun (run_perform_bind fun after => ?_) machine
  refine run_bind_of_run (turnsRun _ _) fun iterations => ?_
  exact run_perform_bind fun _ => run_perform_bind fun _ => run_perform_bind fun _ =>
    run_perform (.expect .breakKw "after 'while' structure")

theorem run_statementBody (blockRuns : block.run = runBlock)
    (turnsRun : ∀ condition body, (turns condition body).run = runTurns condition body) :
    (statementBody block turns).run = Exec.statementBody runBlock runTurns := by
  funext machine
  rw [statementBody, run_peek_bind, Exec.statementBody, get_bind,
    Cursor.peek, ← List.head?_eq_getElem?]
  generalize machine.cursor.rest.head? = next
  generalize next.map Token.kind = kind
  cases kind with
  | none => rfl
  | some kind =>
      cases kind with
      | printKw => exact congrFun run_printStatement machine
      | varKw => exact congrFun run_declarationStatement machine
      | identifier => exact congrFun run_identifierStatement machine
      | ifKw => exact congrFun (run_conditionalStatement blockRuns) machine
      | whileKw => exact congrFun (run_loopStatement turnsRun) machine
      | inputKw => exact congrFun run_inputStatement machine
      | returnKw => exact congrFun run_returnStatement machine
      | breakKw => exact congrFun run_breakStatement machine
      | continueKw => exact congrFun run_continueStatement machine
      | _ => rfl

end Composed

mutual

theorem run_statement (steps : Nat) : (statement steps).run = Exec.statement steps := by
  cases steps with
  | zero => rw [statement, Exec.statement, run_stop]
  | succ steps =>
      rw [statement, Exec.statement, run_beginStatement_bind]
      refine run_perform_bind fun _ => ?_
      refine run_bind_of_run (run_statementBody (run_block steps) fun condition body => ?_)
        fun _ => ?_
      · exact run_turns steps condition body 0
      · exact run_perform (.expect .marker "at end of statement")

theorem run_block (steps : Nat) : (block steps).run = Exec.block steps := by
  cases steps with
  | zero => rw [block, Exec.block, run_stop]
  | succ steps =>
      have goesOn : (do statement steps; block steps).run =
          (do Exec.statement steps; Exec.block steps) :=
        run_bind_of_run (run_statement steps) fun _ => run_block steps
      funext machine
      obtain ⟨⟨last, rest⟩, env, flags, returnValue, console⟩ := machine
      rw [block, Exec.block, run_peek_bind, get_bind]
      cases rest with
      | nil => rfl
      | cons token rest =>
          simp only [Cursor.peek, List.getElem?_cons_zero]
          by_cases closes : token.kind = .blockClose
          · simp only [closes, ↓reduceIte]
            exact congrFun (run_perform .pass) _
          · simp only [closes, ↓reduceIte]
            rw [run_flags_bind]
            by_cases interrupted : flags.interrupted
            · simp only [interrupted, ↓reduceIte]
              exact congrFun (run_perform .skipBlock) _
            · simp only [interrupted, Bool.false_eq_true, ↓reduceIte]
              exact congrFun goesOn _

theorem run_turns (steps : Nat) (condition body : Cursor) (count : Nat) :
    (turns steps condition body count).run = Exec.turns steps condition body count := by
  cases steps with
  | zero => rw [turns, Exec.turns, run_stop]
  | succ steps =>
      rw [turns, Exec.turns]
      refine run_perform_bind fun _ => run_perform_bind fun _ => run_perform_bind fun value =>
        run_perform_bind fun _ => ?_
      match value with
      | .boolean true =>
          refine run_perform_bind fun _ => ?_
          rw [run_enterBlock_bind]
          refine run_bind_of_run (run_block steps) fun _ => ?_
          funext machine
          rw [run_flags_bind, get_bind]
          cases machine.flags.broke || machine.flags.returned with
          | true => rfl
          | false => exact congrFun (run_turns steps condition body (count + 1)) machine
      | .boolean false => rfl
      | .int _ | .float _ | .string _ | .char _ | .void | .unknown =>
          exact run_perform_bind fun _ => rfl

end

theorem run_statements (steps : Nat) : (statements steps).run = Exec.statements steps := by
  induction steps with
  | zero => rfl
  | succ steps ih =>
      have goesOn : (do statement steps; statements steps).run =
          (do Exec.statement steps; Exec.statements steps) :=
        run_bind_of_run (run_statement steps) fun _ => ih
      funext machine
      obtain ⟨⟨last, rest⟩, env, flags, returnValue, console⟩ := machine
      rw [statements, Exec.statements, run_peek_bind, run_flags_bind, get_bind]
      cases rest with
      | nil => rfl
      | cons token rest =>
          cases flags.interrupted with
          | true => rfl
          | false =>
              simp only [Cursor.peek, List.getElem?_cons_zero, Option.isNone_some,
                List.isEmpty_cons, Bool.or_self, Bool.false_eq_true, ↓reduceIte]
              exact congrFun goesOn _

end Plan

/-! ## The history of a run -/

namespace Program

/-- The machine on which the statements of a run are begun. -/
def initial (strict : Bool) (tokens : List Token) (console : Console) : Machine :=
  .enter tokens { strict } (announce tokens console)

/-- The moments of a run. -/
def history (steps : Nat) (strict : Bool) (tokens : List Token) (console : Console) :
    List Moment :=
  (Plan.statements steps).history (initial strict tokens console)

/-- The machine on which a run ends. -/
def final (steps : Nat) (strict : Bool) (tokens : List Token) (console : Console) : Machine :=
  (Plan.statements steps).final (initial strict tokens console)

theorem run_eq_conclude (steps : Nat) (strict : Bool) (tokens : List Token)
    (console : Console) :
    run steps strict tokens console =
      conclude ((Plan.statements steps).run (initial strict tokens console)) := by
  rw [Plan.run_statements, run_eq, initial]

/-- What a run has written is what its last machine has written. -/
theorem run_output (steps : Nat) (strict : Bool) (tokens : List Token) (console : Console) :
    (run steps strict tokens console).2.output =
      (final steps strict tokens console).console.output := by
  rw [run_eq_conclude, final, Plan.final]
  cases (Plan.statements steps).run (initial strict tokens console) with
  | ok result after => exact Console.note_output _ _
  | error reason after =>
      cases reason with
      | failure cause => exact Console.note_output _ _
      | undefinedRemainder | outOfSteps => rfl

/-- The warnings of a report are those of the last machine. -/
theorem warnings_of_reported {steps : Nat} {strict : Bool} {tokens : List Token}
    {console after : Console} {report : Report}
    (reported : run steps strict tokens console = (.reported report, after)) :
    report.warnings = (final steps strict tokens console).env.warnings := by
  rw [run_eq_conclude] at reported
  rw [final, Plan.final]
  cases carried : (Plan.statements steps).run (initial strict tokens console) with
  | ok result machine =>
      rw [carried] at reported
      cases reported
      rfl
  | error reason machine =>
      rw [carried] at reported
      cases reason with
      | failure cause =>
          cases reported
          rfl
      | undefinedRemainder | outOfSteps => cases reported

end Program

end ToonScript
