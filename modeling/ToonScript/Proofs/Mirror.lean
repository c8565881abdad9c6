import ToonScript.Proofs.Primitive
import ToonScript.Proofs.Tree.Brackets
import ToonScript.Proofs.Tree.Interpreter

/-!
# The machine on a tree that is written down

The machine reads tokens and the interpreter of trees reads trees. When the tokens ahead of the
machine spell a tree, the two do the same: this module defines what that means and proves it for
everything that holds no block.

A machine holds a world when it has its variables, its input lines and its lines; it shows a
completion when its flags and its returned value say how the last statement completed. A result
of the machine mirrors an outcome when both stop for the same reason, or when the machine has
come to the end of the tree and shows the completion.
-/

set_option autoImplicit false

namespace ToonScript

open Token (Kind)

/-! ## Machines and worlds -/

/-- The machine at another place. -/
def Machine.move (machine : Machine) (cursor : Cursor) : Machine := { machine with cursor }

/-- The flags that a completion raises. -/
def Completion.flags : Completion → Flags
  | normal => {}
  | broke => { broke := true }
  | continued => { continued := true }
  | returned _ => { returned := true }

/-- The value that a completion returns. -/
def Completion.returnValue : Completion → Option Value
  | returned value => some value
  | _ => none

/-- A machine has the variables and the lines of a world. -/
structure Machine.Holds (machine : Machine) (world : World) : Prop where
  env : machine.env = world.env
  inputs : machine.console.feed.lines = world.inputs
  output : machine.console.output.toList = world.output

/-- A machine has the variables and the lines of a world, and its flags say how a statement
completed. -/
structure Machine.Shows (limit : Nat) (machine : Machine) (completion : Completion)
    (world : World) : Prop
    extends Machine.Holds machine world where
  limited : machine.console.groupLimit = limit
  flags : machine.flags = completion.flags
  returnValue : machine.returnValue = completion.returnValue

section

variable {limit : Nat} {machine : Machine} {completion : Completion} {world : World}

theorem Machine.Holds.move (holds : machine.Holds world) (cursor : Cursor) :
    (machine.move cursor).Holds world :=
  ⟨holds.env, holds.inputs, holds.output⟩

theorem Machine.Shows.move (shown : machine.Shows limit completion world) (cursor : Cursor) :
    (machine.move cursor).Shows limit completion world :=
  ⟨shown.toHolds.move cursor, shown.limited, shown.flags, shown.returnValue⟩

/-- A machine whose trace has got an event. -/
def Machine.noted (machine : Machine) (event : Event) : Machine :=
  { machine with console := machine.console.note event }

theorem Machine.Holds.noted (holds : machine.Holds world) (event : Event) :
    (machine.noted event).Holds world :=
  ⟨holds.env, by rw [Machine.noted, Console.note_feed, holds.inputs],
    by rw [Machine.noted, Console.note_output, holds.output]⟩

theorem Machine.Shows.noted (shown : machine.Shows limit completion world) (event : Event) :
    (machine.noted event).Shows limit completion world :=
  ⟨shown.toHolds.noted event, (Console.note_groupLimit _ _).trans shown.limited, shown.flags,
    shown.returnValue⟩

/-- A machine that raises the flags of a completion. -/
theorem Machine.Shows.raised (shown : machine.Shows limit .normal world) {flags : Flags}
    {returnValue : Option Value} (raises : flags = completion.flags)
    (gives : returnValue = completion.returnValue) :
    ({ machine with flags, returnValue } : Machine).Shows limit completion world :=
  ⟨⟨shown.env, shown.inputs, shown.output⟩, shown.limited, raises, gives⟩

theorem Machine.Shows.written (shown : machine.Shows limit completion world) (line : Text) :
    ({ machine with console := machine.console.write line } : Machine).Shows limit completion
      { world with output := world.output ++ [line] } := by
  refine ⟨⟨shown.env, shown.inputs, ?_⟩, shown.limited, shown.flags, shown.returnValue⟩
  simp only [Console.write, Array.toList_push, shown.output]

end

/-! ## Results that mirror outcomes -/

/-- A result of the machine and one of the interpreter: both stop for one reason in the same
world, or both end and what they end with is related. -/
inductive Mirrors {α β : Type} (ends : α → Machine → β → World → Prop) :
    EStateM.Result Stop Machine α → EStateM.Result Stop World β → Prop where
  | ok {a : α} {machine : Machine} {b : β} {world : World} (ended : ends a machine b world) :
      Mirrors ends (.ok a machine) (.ok b world)
  | error {stop : Stop} {machine : Machine} {world : World} (holds : machine.Holds world) :
      Mirrors ends (.error stop machine) (.error stop world)

namespace Mirrors

variable {α β γ δ : Type} {ends : α → Machine → β → World → Prop} {ends' : γ → Machine →
  δ → World → Prop} {machine : Machine} {world : World}

theorem bind {first : Exec α} {treeFirst : EStateM Stop World β} {next : α → Exec γ}
    {treeNext : β → EStateM Stop World δ}
    (mirrors : Mirrors ends (first machine) (treeFirst world))
    (mirrorsNext : ∀ {a machine b world}, ends a machine b world →
      Mirrors ends' (next a machine) (treeNext b world)) :
    Mirrors ends' ((first >>= next) machine) ((treeFirst >>= treeNext) world) := by
  generalize begun : first machine = result at mirrors
  generalize treeBegun : treeFirst world = outcome at mirrors
  cases mirrors with
  | ok ended =>
      rw [bind_of_ok begun, bind_of_ok treeBegun]
      exact mirrorsNext ended
  | error holds =>
      rw [bind_of_error begun, bind_of_error treeBegun]
      exact .error holds

/-- The machine goes on where the tree has nothing more to do. -/
theorem followed {first : Exec α} {next : α → Exec γ} {outcome : EStateM.Result Stop World β}
    {ends' : γ → Machine → β → World → Prop} (mirrors : Mirrors ends (first machine) outcome)
    (succeeds : ∀ {a machine b world}, ends a machine b world →
      ∃ c after, next a machine = .ok c after ∧ ends' c after b world) :
    Mirrors ends' ((first >>= next) machine) outcome := by
  generalize begun : first machine = result at mirrors
  cases mirrors with
  | ok ended =>
      obtain ⟨c, after, went, endedAfter⟩ := succeeds ended
      rw [bind_of_ok begun, went]
      exact .ok endedAfter
  | error holds =>
      rw [bind_of_error begun]
      exact .error holds

end Mirrors

/-- The machine has come to a place and shows how the tree completed. -/
structure EndsAt (limit : Nat) (cursor : Cursor) {α : Type} (a : α) (machine : Machine)
    (completion : Completion) (world : World) : Prop where
  place : machine.cursor = cursor
  shown : machine.Shows limit completion world

/-- The machine is at a place and nothing is interrupted. -/
structure StandsAt (limit : Nat) (cursor : Cursor) {α β : Type} (a : α) (machine : Machine)
    (b : β) (world : World) : Prop where
  place : machine.cursor = cursor
  shown : machine.Shows limit .normal world

/-- A note is left where the tree has nothing more to do. -/
theorem StandsAt.noted {limit : Nat} {α β : Type} {cursor : Cursor} {machine : Machine}
    {world : World} {a : α} {b : β} (stands : StandsAt limit cursor a machine b world)
    (event : Event) :
    Mirrors (EndsAt limit cursor) (Exec.note event machine) (.ok .normal world) :=
  .ok ⟨stands.place, stands.shown.noted event⟩

/-! ## Tokens and expressions -/

/-- A bracketed expression, token by token. -/
theorem Spells.bracketed {tier : Tier} {expr : Expr tier} {tokens : List Token}
    (spelled : Spells tokens expr.bracketed) :
    ∃ opening inner closing, tokens = opening :: (inner ++ [closing]) ∧
      opening.kind = .groupOpen ∧
      Spells inner expr.symbols ∧ closing.kind = .groupClose := by
  obtain ⟨opening, behind, rfl, opens, spelledBehind⟩ := Spells.cons_iff.mp spelled
  obtain ⟨inner, back, rfl, spelledInner, spelledBack⟩ := Spells.append_iff.mp spelledBehind
  obtain ⟨closing, nothing, rfl, closes, spelledNothing⟩ := Spells.cons_iff.mp spelledBack
  obtain rfl := Spells.nil_iff.mp spelledNothing
  exact ⟨opening, inner, closing, rfl, (Token.of_symbol_sign opens).2, spelledInner,
    (Token.of_symbol_sign closes).2⟩

/-- A token that continues no expression ends every one. -/
theorem Expr.ends_of_continues {tier : Tier} (expr : Expr tier) {token : Token} {kind : Kind}
    (ahead : List Token) (isKind : token.kind = kind) (never : tier.continues kind = false) :
    expr.Ends (token :: ahead) := by
  rw [ends_cons, isKind]
  exact expr.continuedBy_eq_false never

namespace Exec

variable {limit : Nat} {machine : Machine} {world : World} {kind : Kind} {token : Token}
  {rest : List Token} {last : Option Token}

theorem pass_move :
    pass (machine.move ⟨last, token :: rest⟩) = .ok () (machine.move ⟨some token, rest⟩) := rfl

theorem expect_move (isKind : token.kind = kind) (context : Text) :
    expect kind context (machine.move ⟨last, token :: rest⟩) =
      .ok () (machine.move ⟨some token, rest⟩) :=
  expect_of_kind rfl isKind context

theorem note_move {cursor : Cursor} (event : Event) :
    note event (machine.move cursor) = .ok () ((machine.noted event).move cursor) := rfl

theorem moveTo_move {cursor cursor' : Cursor} :
    moveTo cursor' (machine.move cursor) = .ok () (machine.move cursor') := rfl

theorem expectName_move {name : Text} (named : token.symbol = .name name) (context : Text) :
    expectName context (machine.move ⟨last, token :: rest⟩) =
      .ok name (machine.move ⟨some token, rest⟩) := by
  obtain ⟨-, identifier, lexeme⟩ := Token.of_symbol_name named
  exact expectName_eq_ok.mpr ⟨token, rest, rfl, identifier, lexeme, rfl⟩

/-- The machine has evaluated an expression as the tree says, and stands behind it. -/
def Evaluated (machine : Machine) (world : World) (cursor : Cursor) :
    Value → Machine → Value → World → Prop :=
  fun value after value' world' => value = value' ∧ after = machine.move cursor ∧ world' = world

theorem evaluate_mirrors {formula : Formula} (shallow : formula.nesting ≤ limit)
    {tokens ahead : List Token} (spelled : Spells tokens formula.symbols)
    (ends : formula.Ends ahead) (shown : machine.Shows limit .normal world) :
    Mirrors (Evaluated machine world ⟨Cursor.past last tokens, ahead⟩)
      (evaluate (machine.move ⟨last, tokens ++ ahead⟩)) (World.evaluate formula world) := by
  have read := Expression.evaluate_spelled machine.env.bindings shallow spelled ends last
  rw [evaluate_eq, show (machine.move ⟨last, tokens ++ ahead⟩).env = machine.env from rfl,
    show (machine.move ⟨last, tokens ++ ahead⟩).console.groupLimit = limit from shown.limited]
  have same : formula.value machine.env.bindings = formula.value world.env.bindings := by
    rw [shown.env]
  cases valued : formula.value world.env.bindings with
  | ok value =>
      rw [same, valued] at read
      have evaluated : Expression.evaluate limit machine.env.bindings
        (machine.move ⟨last, tokens ++ ahead⟩).cursor =
        .ok value ⟨Cursor.past last tokens, ahead⟩ := read
      rw [World.evaluate_of_ok valued, scan_of_ok evaluated]
      exact .ok ⟨rfl, rfl, rfl⟩
  | error stop =>
      rw [same, valued] at read
      obtain ⟨cursor, stops⟩ := read
      have stopped : Expression.evaluate limit machine.env.bindings
        (machine.move ⟨last, tokens ++ ahead⟩).cursor = .error stop cursor := stops
      rw [World.evaluate_of_error valued, scan_of_error stopped]
      exact .error (shown.toHolds.move cursor)

/-! ## The variables and the console -/

theorem declare_mirrors (name : Text) (value : Value)
    (shown : machine.Shows limit .normal world) :
    Mirrors (StandsAt limit machine.cursor) (declare name value machine)
      (World.declare name value world) := by
  rw [declare, get_bind, World.declare, shown.env]
  cases world.env.declare name value with
  | ok env =>
      exact .ok ⟨rfl, ⟨rfl, shown.inputs, shown.output⟩, shown.limited, shown.flags,
        shown.returnValue⟩
  | error cause => exact .error shown.toHolds

theorem assign_mirrors (name : Text) (value : Value)
    (shown : machine.Shows limit .normal world) :
    Mirrors (StandsAt limit machine.cursor) (assign name value machine)
      (World.assign name value world) := by
  rw [assign, get_bind, World.assign, shown.env]
  cases world.env.assign name value with
  | error cause => exact .error shown.toHolds
  | ok assigned =>
      obtain ⟨env, mismatch⟩ := assigned
      have assignedShown :
          ({ machine with env } : Machine).Shows limit .normal { world with env } :=
        ⟨⟨rfl, shown.inputs, shown.output⟩, shown.limited, shown.flags, shown.returnValue⟩
      cases mismatch with
      | none => exact .ok ⟨rfl, assignedShown⟩
      | some mismatch => exact .ok ⟨rfl, assignedShown.noted _⟩

/-- The way to assign that the machine reads off the sign of an update. -/
def assignmentOf : Update → Assignment
  | .set => .plain
  | .increase => .combined .add
  | .decrease => .combined .sub

theorem assignment?_kind (update : Update) :
    assignment? update.kind = some (assignmentOf update) := by
  cases update <;> rfl

/-- The value that a declared variable is assigned. -/
theorem combine_mirrors (update : Update) {name : Text} {current : Value} (operand : Value)
    (declared : world.env.bindings.get? name = some current)
    (shown : machine.Shows limit .normal world) :
    Mirrors (Evaluated machine world machine.cursor)
      (combine name operand (assignmentOf update) machine)
      (update.apply current operand world) := by
  have found : lookup name machine = .ok current machine := by
    rw [lookup, get_bind, shown.env, Environment.lookup, declared]
    rfl
  have operated (result : Except OperationError Value) :
      Mirrors (Evaluated machine world machine.cursor)
        (scan (Expression.operate result) machine) (World.operate result world) := by
    cases result with
    | ok value => exact .ok ⟨rfl, rfl, rfl⟩
    | error error => exact .error shown.toHolds
  cases update with
  | set => exact .ok ⟨rfl, rfl, rfl⟩
  | increase =>
      rw [assignmentOf, combine, bind_of_ok found]
      exact operated _
  | decrease =>
      rw [assignmentOf, combine, bind_of_ok found]
      exact operated _

/-! ## Statements without blocks -/

variable {tokens ahead : List Token}

theorem printStatement_mirrors {formula : Formula} (shallow : formula.nesting ≤ limit)
    (spelled : Spells tokens (Action.print formula).symbols)
    (shown : machine.Shows limit .normal world) :
    Mirrors (EndsAt limit ⟨Cursor.past last tokens, ahead⟩)
      (printStatement (machine.move ⟨last, tokens ++ ahead⟩))
      ((Action.print formula).perform world) := by
  obtain ⟨word, behind, rfl, -, spelledGroup⟩ := Spells.cons_iff.mp spelled
  obtain ⟨opening, inner, closing, rfl, opens, spelledInner, closes⟩ := spelledGroup.bracketed
  simp only [List.cons_append, List.append_assoc, List.nil_append, Cursor.past_cons,
    Cursor.past_append, Cursor.past_nil]
  rw [printStatement, bind_of_ok pass_move, bind_of_ok (expect_move opens _)]
  refine (evaluate_mirrors shallow spelledInner (formula.ends_of_continues ahead closes rfl)
    shown).bind ?_
  rintro value _ _ _ ⟨rfl, rfl, rfl⟩
  rw [bind_of_ok (expect_move closes _)]
  exact .ok ⟨rfl, (shown.move _).written value.text⟩

theorem declarationStatement_mirrors {name : Text} {formula : Formula}
    (shallow : formula.nesting ≤ limit)
    (spelled : Spells tokens (Action.declare name formula).symbols) (ends : formula.Ends ahead)
    (shown : machine.Shows limit .normal world) :
    Mirrors (EndsAt limit ⟨Cursor.past last tokens, ahead⟩)
      (declarationStatement (machine.move ⟨last, tokens ++ ahead⟩))
      ((Action.declare name formula).perform world) := by
  obtain ⟨word, _, rfl, -, spelledName⟩ := Spells.cons_iff.mp spelled
  obtain ⟨target, _, rfl, named, spelledSign⟩ := Spells.cons_iff.mp spelledName
  obtain ⟨sign, inner, rfl, assigns, spelledInner⟩ := Spells.cons_iff.mp spelledSign
  simp only [List.cons_append, Cursor.past_cons]
  rw [declarationStatement, bind_of_ok pass_move, bind_of_ok (expectName_move named _),
    bind_of_ok (expect_move (Token.of_symbol_sign assigns).2 _)]
  refine (evaluate_mirrors shallow spelledInner ends shown).bind ?_
  rintro value _ _ _ ⟨rfl, rfl, rfl⟩
  refine (declare_mirrors name value (shown.move _)).bind fun stands => ?_
  exact stands.noted _

/-- The machine decides by the second token that a statement is an assignment. -/
theorem identifierStatement_of_some {target sign : Token} {assignment : Assignment}
    (known : assignment? sign.kind = some assignment) :
    identifierStatement (machine.move ⟨last, target :: sign :: rest⟩) =
      if machine.env.declares target.lexeme then
        assignTo target.lexeme assignment (machine.move ⟨some sign, rest⟩)
      else .error (.failure (.undeclared target.lexeme))
        (machine.move ⟨last, target :: sign :: rest⟩) := by
  rw [identifierStatement, get_bind]
  by_cases declared : machine.env.declares target.lexeme
  · simp only [Machine.move, known, declared, ↓reduceIte]
    rfl
  · simp only [Machine.move, known, declared, Bool.false_eq_true, ↓reduceIte]
    rfl

theorem assignStatement_mirrors {name : Text} {update : Update} {formula : Formula}
    (shallow : formula.nesting ≤ limit)
    (spelled : Spells tokens (Action.assign name update formula).symbols)
    (ends : formula.Ends ahead) (shown : machine.Shows limit .normal world) :
    Mirrors (EndsAt limit ⟨Cursor.past last tokens, ahead⟩)
      (identifierStatement (machine.move ⟨last, tokens ++ ahead⟩))
      ((Action.assign name update formula).perform world) := by
  obtain ⟨target, _, rfl, named, spelledSign⟩ := Spells.cons_iff.mp spelled
  obtain ⟨sign, inner, rfl, assigns, spelledInner⟩ := Spells.cons_iff.mp spelledSign
  obtain ⟨-, identifier, rfl⟩ := Token.of_symbol_name named
  have known : assignment? sign.kind = some (assignmentOf update) := by
    rw [(Token.of_symbol_sign assigns).2, assignment?_kind]
  simp only [List.cons_append, Cursor.past_cons]
  rw [identifierStatement_of_some known, Action.perform, get_bind,
    Environment.declares, shown.env]
  cases declared : world.env.bindings.get? target.lexeme with
  | none => exact .error (shown.toHolds.move _)
  | some current =>
      refine (evaluate_mirrors shallow spelledInner ends shown).bind ?_
      rintro operand _ _ _ ⟨rfl, rfl, rfl⟩
      refine (combine_mirrors update operand declared (shown.move _)).bind ?_
      rintro value _ _ _ ⟨rfl, rfl, rfl⟩
      refine (assign_mirrors _ value (shown.move _)).bind fun stands => ?_
      exact stands.noted _

theorem identifierStatement_of_none {target sign : Token}
    (unknown : assignment? sign.kind = none) :
    identifierStatement (machine.move ⟨last, target :: sign :: rest⟩) =
      (do let _ ← evaluate : Exec Unit) (machine.move ⟨last, target :: sign :: rest⟩) := by
  rw [identifierStatement, get_bind]
  simp only [Machine.move, unknown]

/-- An expression holds no sign of an assignment. -/
theorem assignment?_of_spelled {formula : Formula} (spelled : Spells tokens formula.symbols) :
    ∀ token ∈ tokens, assignment? token.kind = none := by
  intro token member
  cases isKind : token.kind
  case assign =>
      exact absurd isKind (Expr.kind_ne_of_spelled spelled rfl (by decide) rfl token member)
  case plusAssign =>
      exact absurd isKind (Expr.kind_ne_of_spelled spelled rfl (by decide) rfl token member)
  case minusAssign =>
      exact absurd isKind (Expr.kind_ne_of_spelled spelled rfl (by decide) rfl token member)
  all_goals rfl

theorem discardStatement_mirrors {formula : Formula} (named : formula.leadsWithName = true)
    (shallow : formula.nesting ≤ limit) (spelled : Spells tokens formula.symbols)
    (isMarker : token.kind = .marker) (shown : machine.Shows limit .normal world) :
    Mirrors (EndsAt limit ⟨Cursor.past last tokens, token :: ahead⟩)
      (identifierStatement (machine.move ⟨last, tokens ++ token :: ahead⟩))
      ((Action.discard formula named).perform world) := by
  have evaluated : identifierStatement (machine.move ⟨last, tokens ++ token :: ahead⟩) =
      (do let _ ← evaluate : Exec Unit) (machine.move ⟨last, tokens ++ token :: ahead⟩) := by
    match tokens with
    | [] => exact absurd spelled.symm formula.symbols_ne_nil
    | [target] => exact identifierStatement_of_none (by rw [isMarker]; rfl)
    | target :: sign :: others =>
        exact identifierStatement_of_none (assignment?_of_spelled spelled sign (by simp))
  rw [evaluated]
  refine (evaluate_mirrors shallow spelled (formula.ends_of_continues ahead isMarker rfl)
    shown).bind ?_
  rintro value _ _ _ ⟨rfl, rfl, rfl⟩
  exact .ok ⟨rfl, shown.move _⟩

theorem read_mirrors (shown : machine.Shows limit .normal world) :
    Mirrors (fun line after line' world' => line = line' ∧
      StandsAt limit machine.cursor () after () world') (read machine) (World.read world) := by
  have sameLine : (read machine) = .ok (world.inputs.head?.getD "")
      { machine with console := machine.console.read.2 } := by
    rw [← shown.inputs]
    rfl
  rw [sameLine]
  refine .ok ⟨rfl, rfl, ⟨shown.env, ?_, shown.output⟩, shown.limited, shown.flags,
    shown.returnValue⟩
  rw [← shown.inputs]
  rfl

theorem inputStatement_mirrors {name : Text}
    (spelled : Spells tokens (Action.input name).symbols)
    (shown : machine.Shows limit .normal world) :
    Mirrors (EndsAt limit ⟨Cursor.past last tokens, ahead⟩)
      (inputStatement (machine.move ⟨last, tokens ++ ahead⟩))
      ((Action.input name).perform world) := by
  obtain ⟨word, _, rfl, -, spelledOpening⟩ := Spells.cons_iff.mp spelled
  obtain ⟨opening, _, rfl, opens, spelledName⟩ := Spells.cons_iff.mp spelledOpening
  obtain ⟨target, _, rfl, named, spelledClosing⟩ := Spells.cons_iff.mp spelledName
  obtain ⟨closing, _, rfl, closes, spelledNothing⟩ := Spells.cons_iff.mp spelledClosing
  obtain rfl := Spells.nil_iff.mp spelledNothing
  simp only [List.cons_append, List.nil_append, Cursor.past_cons, Cursor.past_nil]
  rw [inputStatement, bind_of_ok pass_move,
    bind_of_ok (expect_move (Token.of_symbol_sign opens).2 _),
    bind_of_ok (expectName_move named _),
    bind_of_ok (expect_move (Token.of_symbol_sign closes).2 _), get_bind, Action.perform,
    get_bind, show (machine.move ⟨some closing, ahead⟩).env = world.env from shown.env]
  cases world.env.bindings.get? name with
  | none => exact .error (shown.toHolds.move _)
  | some current =>
      refine (read_mirrors (shown.move _)).bind ?_
      rintro line _ _ _ ⟨rfl, stands⟩
      cases Value.ofInput current.ty line with
      | error error => exact .error stands.shown.toHolds
      | ok value =>
          refine (assign_mirrors name value stands.shown).bind ?_
          rintro _ after _ assignedWorld ⟨place, assigned⟩
          exact .ok ⟨place.trans stands.place, assigned.noted _⟩

theorem returnStatement_mirrors {formula : Formula} (shallow : formula.nesting ≤ limit)
    (spelled : Spells tokens (Action.giveBack formula).symbols) (ends : formula.Ends ahead)
    (shown : machine.Shows limit .normal world) :
    Mirrors (EndsAt limit ⟨Cursor.past last tokens, ahead⟩)
      (returnStatement (machine.move ⟨last, tokens ++ ahead⟩))
      ((Action.giveBack formula).perform world) := by
  obtain ⟨word, inner, rfl, -, spelledInner⟩ := Spells.cons_iff.mp spelled
  simp only [List.cons_append, Cursor.past_cons]
  rw [returnStatement, bind_of_ok pass_move]
  refine (evaluate_mirrors shallow spelledInner ends shown).bind ?_
  rintro value _ _ _ ⟨rfl, rfl, rfl⟩
  have flags : { machine.flags with returned := true } = (Completion.returned value).flags := by
    rw [shown.flags]
    rfl
  exact .ok ⟨rfl, ((shown.move _).raised flags rfl).noted _⟩

theorem breakStatement_mirrors (spelled : Spells tokens Action.breakOff.symbols)
    (shown : machine.Shows limit .normal world) :
    Mirrors (EndsAt limit ⟨Cursor.past last tokens, ahead⟩)
      (breakStatement (machine.move ⟨last, tokens ++ ahead⟩))
      (Action.breakOff.perform world) := by
  obtain ⟨word, _, rfl, -, spelledNothing⟩ := Spells.cons_iff.mp spelled
  obtain rfl := Spells.nil_iff.mp spelledNothing
  have flags : { machine.flags with broke := true } = Completion.broke.flags := by
    rw [shown.flags]
    rfl
  exact .ok ⟨rfl, ((shown.move _).raised flags shown.returnValue).noted _⟩

theorem continueStatement_mirrors (spelled : Spells tokens Action.goOn.symbols)
    (shown : machine.Shows limit .normal world) :
    Mirrors (EndsAt limit ⟨Cursor.past last tokens, ahead⟩)
      (continueStatement (machine.move ⟨last, tokens ++ ahead⟩))
      (Action.goOn.perform world) := by
  obtain ⟨word, _, rfl, -, spelledNothing⟩ := Spells.cons_iff.mp spelled
  obtain rfl := Spells.nil_iff.mp spelledNothing
  have flags : { machine.flags with continued := true } = Completion.continued.flags := by
    rw [shown.flags]
    rfl
  exact .ok ⟨rfl, ((shown.move _).raised flags shown.returnValue).noted _⟩

/-- The statement that starts with a token. -/
def bodyOf (block : Exec Unit) (turns : Cursor → Cursor → Exec Nat) (first : Token) :
    Exec Unit :=
  match first.kind with
  | .printKw => printStatement
  | .varKw => declarationStatement
  | .identifier => identifierStatement
  | .ifKw => conditionalStatement block
  | .whileKw => loopStatement turns
  | .inputKw => inputStatement
  | .returnKw => returnStatement
  | .breakKw => breakStatement
  | .continueKw => continueStatement
  | _ => fail (.structural .invalidStatement (some first))

variable {block : Exec Unit} {turns : Cursor → Cursor → Exec Nat} {symbols : List Symbol}

theorem statementBody_move (first : Token) :
    statementBody block turns (machine.move ⟨last, first :: rest⟩) =
      bodyOf block turns first (machine.move ⟨last, first :: rest⟩) := by
  rw [statementBody, get_bind, bodyOf]
  simp only [Machine.move, List.head?_cons, Option.map_some]
  cases first.kind <;> rfl

theorem statementBody_of_sign (spelled : Spells tokens (.sign kind :: symbols)) :
    ∃ first : Token, first.kind = kind ∧
      statementBody block turns (machine.move ⟨last, tokens ++ ahead⟩) =
      bodyOf block turns first (machine.move ⟨last, tokens ++ ahead⟩) := by
  obtain ⟨first, others, rfl, spelledFirst, -⟩ := Spells.cons_iff.mp spelled
  exact ⟨first, (Token.of_symbol_sign spelledFirst).2, statementBody_move first⟩

theorem statementBody_of_name {name : Text} (spelled : Spells tokens (.name name :: symbols)) :
    statementBody block turns (machine.move ⟨last, tokens ++ ahead⟩) =
      identifierStatement (machine.move ⟨last, tokens ++ ahead⟩) := by
  obtain ⟨first, others, rfl, spelledFirst, -⟩ := Spells.cons_iff.mp spelled
  rw [List.cons_append, statementBody_move, bodyOf, (Token.of_symbol_name spelledFirst).2.1]

/-- **The machine does what a statement without blocks says**, and comes to the marker behind
it. -/
theorem action_mirrors (action : Action) (shallow : action.nesting ≤ limit)
    (spelled : Spells tokens action.symbols) (isMarker : token.kind = .marker)
    (shown : machine.Shows limit .normal world) :
    Mirrors (EndsAt limit ⟨Cursor.past last tokens, token :: ahead⟩)
      (statementBody block turns (machine.move ⟨last, tokens ++ token :: ahead⟩))
      (action.perform world) := by
  have ends (formula : Formula) : formula.Ends (token :: ahead) :=
    formula.ends_of_continues ahead isMarker rfl
  cases action with
  | print formula =>
      obtain ⟨first, isKind, same⟩ := statementBody_of_sign spelled
      rw [same, bodyOf, isKind]
      exact printStatement_mirrors shallow spelled shown
  | declare name formula =>
      obtain ⟨first, isKind, same⟩ := statementBody_of_sign spelled
      rw [same, bodyOf, isKind]
      exact declarationStatement_mirrors shallow spelled (ends formula) shown
  | assign name update formula =>
      rw [statementBody_of_name spelled]
      exact assignStatement_mirrors shallow spelled (ends formula) shown
  | discard formula named =>
      have start : ∃ name symbols, formula.symbols = .name name :: symbols := by
        unfold Expr.leadsWithName at named
        split at named
        · next name symbols shape => exact ⟨name, symbols, shape⟩
        · cases named
      obtain ⟨name, symbols, shape⟩ := start
      rw [statementBody_of_name (shape ▸ spelled : Spells tokens (.name name :: symbols))]
      exact discardStatement_mirrors named shallow spelled isMarker shown
  | input name =>
      obtain ⟨first, isKind, same⟩ := statementBody_of_sign spelled
      rw [same, bodyOf, isKind]
      exact inputStatement_mirrors spelled shown
  | giveBack formula =>
      obtain ⟨first, isKind, same⟩ := statementBody_of_sign spelled
      rw [same, bodyOf, isKind]
      exact returnStatement_mirrors shallow spelled (ends formula) shown
  | breakOff =>
      obtain ⟨first, isKind, same⟩ := statementBody_of_sign spelled
      rw [same, bodyOf, isKind]
      exact breakStatement_mirrors spelled shown
  | goOn =>
      obtain ⟨first, isKind, same⟩ := statementBody_of_sign spelled
      rw [same, bodyOf, isKind]
      exact continueStatement_mirrors spelled shown

end Exec

end ToonScript
