import ToonScript.Proofs.Execution
import ToonScript.Proofs.Mirror
import ToonScript.Proofs.Tree.Printing

/-!
# The machine refines the trees

Conditionals, loops and blocks are executed while they are read: an untaken branch and the rest
of an interrupted block are passed over by a scan for a bracket, a loop moves the cursor back,
and flags stand for how a statement completed. On tokens that spell a tree all this does what
the tree says, budget for budget (`machine_mirrors`).

Together with the interpreter of trees this gives the main result, `run_iff_runs`: a run on the
tokens of a program ends exactly when the program does as a tree, with the same report, the same
lines and the same input left.
-/

set_option autoImplicit false

namespace ToonScript

open Token (Kind)

variable {limit : Nat} {tokens ahead rest : List Token} {last : Option Token}
  {machine : Machine} {world : World}

theorem EndsAt.eq_move {cursor : Cursor} {α : Type} {a : α} {completion : Completion}
    (ends : EndsAt limit cursor a machine completion world) :
    machine = machine.move cursor := by
  rw [← ends.place]
  rfl

/-! ## Written blocks, token by token -/

namespace Spells

/-- A block in its brackets and what follows it. -/
theorem enclosed {stmts : List Stmt} {behind : List Symbol}
    (spelled : Spells tokens (.sign .blockOpen ::
      (Stmt.blockSymbols stmts ++ .sign .blockClose :: behind))) :
    ∃ opening inner closing back, tokens = opening :: (inner ++ closing :: back) ∧
      opening.kind = .blockOpen ∧
      Spells inner (Stmt.blockSymbols stmts) ∧ closing.kind = .blockClose ∧
      Spells back behind := by
  obtain ⟨opening, _, rfl, opens, spelledBlock⟩ := cons_iff.mp spelled
  obtain ⟨inner, _, rfl, spelledInner, spelledClosing⟩ := append_iff.mp spelledBlock
  obtain ⟨closing, back, rfl, closes, spelledBack⟩ := cons_iff.mp spelledClosing
  exact ⟨opening, inner, closing, back, rfl, (Token.of_symbol_sign opens).2, spelledInner,
    (Token.of_symbol_sign closes).2, spelledBack⟩

/-- A word, a condition in its brackets and what follows it. -/
theorem headed {kind : Kind} {condition : Formula} {behind : List Symbol}
    (spelled : Spells tokens (.sign kind :: (condition.bracketed ++ behind))) :
    ∃ word opening inner closing back, tokens = word :: opening :: (inner ++ closing :: back) ∧
      opening.kind = .groupOpen ∧ Spells inner condition.symbols ∧ closing.kind = .groupClose ∧
        Spells back behind := by
  obtain ⟨word, _, rfl, -, spelledGroup⟩ := cons_iff.mp spelled
  obtain ⟨_, back, rfl, spelledCondition, spelledBack⟩ := append_iff.mp spelledGroup
  obtain ⟨opening, inner, closing, rfl, opens, spelledInner, closes⟩ :=
    spelledCondition.bracketed
  refine ⟨word, opening, inner, closing, back, ?_, opens, spelledInner, closes, spelledBack⟩
  simp only [List.cons_append, List.append_assoc, List.nil_append]

/-- A statement between its markers and the statements behind it. -/
theorem statement {stmt : Stmt} {stmts : List Stmt}
    (spelled : Spells tokens (Stmt.blockSymbols (stmt :: stmts))) :
    ∃ start inner final back, tokens = start :: (inner ++ final :: back) ∧
      start.kind = .marker ∧
      Spells inner stmt.symbols ∧ final.kind = .marker ∧
      Spells back (Stmt.blockSymbols stmts) := by
  obtain ⟨start, _, rfl, starts, spelledStatement⟩ := cons_iff.mp spelled
  obtain ⟨inner, _, rfl, spelledInner, spelledFinal⟩ := append_iff.mp spelledStatement
  obtain ⟨final, back, rfl, finals, spelledBack⟩ := cons_iff.mp spelledFinal
  exact ⟨start, inner, final, back, rfl, (Token.of_symbol_sign starts).2, spelledInner,
    (Token.of_symbol_sign finals).2, spelledBack⟩

end Spells

/-- The machine with a break and a continue settled. -/
def Machine.settled (machine : Machine) : Machine :=
  { machine with flags := machine.flags.settled }

namespace Exec

/-! ## Passing over blocks and conditions -/

theorem closing?_block {stmts : List Stmt} {closing : Token}
    (spelled : Spells tokens (Stmt.blockSymbols stmts)) (closes : closing.kind = .blockClose) :
    Cursor.closing? ⟨last, tokens ++ closing :: ahead⟩ .blockOpen .blockClose =
      some ⟨some closing, ahead⟩ :=
  (Cursor.closing?_eq_some_iff (by decide)).mpr
    ⟨tokens, closing, rfl, rfl, Symbol.paired_inherited.stmts stmts tokens spelled, closes⟩

theorem closing?_group {formula : Formula} {closing : Token}
    (spelled : Spells tokens formula.symbols) (closes : closing.kind = .groupClose) :
    Cursor.closing? ⟨last, tokens ++ closing :: ahead⟩ .groupOpen .groupClose =
      some ⟨some closing, ahead⟩ :=
  (Cursor.closing?_eq_some_iff (by decide)).mpr
    ⟨tokens, closing, rfl, rfl, formula.groups_balanced spelled, closes⟩

theorem skipBlock_move {stmts : List Stmt} {closing : Token}
    (spelled : Spells tokens (Stmt.blockSymbols stmts)) (closes : closing.kind = .blockClose) :
    skipBlock (machine.move ⟨last, tokens ++ closing :: ahead⟩) =
      .ok () (machine.move ⟨some closing, ahead⟩) :=
  skipBlock_eq_ok.mpr ⟨_, closing?_block spelled closes, rfl⟩

/-! ## Conditionals -/

/-- A way to execute blocks does what a way to run blocks of statements does. -/
def BlockMirrors (block : Exec Unit) (tree : List Stmt → EStateM Stop World Completion) :
    Prop :=
  ∀ {limit : Nat} {stmts : List Stmt} {tokens ahead : List Token} {closing : Token}
    {last : Option Token} {machine : Machine}
    {world : World}, Stmt.blockNesting stmts ≤ limit → Spells tokens (Stmt.blockSymbols stmts) →
    closing.kind = .blockClose → machine.Shows limit .normal world →
      Mirrors (EndsAt limit ⟨some closing, ahead⟩)
        (block (machine.move ⟨last, tokens ++ closing :: ahead⟩)) (tree stmts world)

variable {block : Exec Unit} {tree : List Stmt → EStateM Stop World Completion}
  {no : Option (List Stmt)} {ending : Token}

theorem elseBranch_of_none (ends : ending.kind = .breakKw) (taken : Bool) :
    elseBranch block taken (machine.move ⟨last, ending :: ahead⟩) =
      .ok () (machine.move ⟨last, ending :: ahead⟩) := by
  rw [elseBranch, get_bind]
  simp only [Machine.move, Cursor.check, ends]
  rfl

theorem elseBranch_of_some {word opening : Token} (other : word.kind = .elseKw)
    (opens : opening.kind = .blockOpen) (taken : Bool) :
    elseBranch block taken (machine.move ⟨last, word :: opening :: rest⟩) =
      branch block taken (machine.move ⟨some opening, rest⟩) := by
  rw [elseBranch, get_bind]
  have present : (machine.move ⟨last, word :: opening :: rest⟩).cursor.check (· == .elseKw) =
      true := by
    simp only [Machine.move, Cursor.check, other]
    rfl
  rw [if_pos present, bind_of_ok pass_move, bind_of_ok (expect_move opens _)]

/-- The other branch is passed over. -/
theorem elseBranch_skips (spelled : Spells tokens (Stmt.elseSymbols no))
    (ends : ending.kind = .breakKw) :
    elseBranch block false (machine.move ⟨last, tokens ++ ending :: ahead⟩) =
      .ok () (machine.move ⟨Cursor.past last tokens, ending :: ahead⟩) := by
  cases no with
  | none =>
      obtain rfl := Spells.nil_iff.mp spelled
      exact elseBranch_of_none ends false
  | some stmts =>
      obtain ⟨word, _, rfl, other, spelledBlock⟩ := Spells.cons_iff.mp spelled
      obtain ⟨opening, inner, closing, _, rfl, opens, spelledInner, closes, spelledNothing⟩ :=
        spelledBlock.enclosed
      obtain rfl := Spells.nil_iff.mp spelledNothing
      simp only [List.cons_append, List.append_assoc, List.nil_append, Cursor.past_cons,
        Cursor.past_append, Cursor.past_nil]
      rw [elseBranch_of_some (Token.of_symbol_sign other).2 opens]
      exact skipBlock_move spelledInner closes

/-- The other branch is executed, if there is one. -/
theorem elseBranch_mirrors (blocks : BlockMirrors block tree)
    (shallow : Stmt.elseNesting no ≤ limit) (spelled : Spells tokens (Stmt.elseSymbols no))
    (ends : ending.kind = .breakKw) (shown : machine.Shows limit .normal world) :
    Mirrors (EndsAt limit ⟨Cursor.past last tokens, ending :: ahead⟩)
      (elseBranch block true (machine.move ⟨last, tokens ++ ending :: ahead⟩))
      ((no.elim (pure .normal) fun stmts => tree stmts : EStateM Stop World Completion)
        world) := by
  cases no with
  | none =>
      obtain rfl := Spells.nil_iff.mp spelled
      rw [List.nil_append, elseBranch_of_none ends]
      exact .ok ⟨rfl, shown.move _⟩
  | some stmts =>
      obtain ⟨word, _, rfl, other, spelledBlock⟩ := Spells.cons_iff.mp spelled
      obtain ⟨opening, inner, closing, _, rfl, opens, spelledInner, closes, spelledNothing⟩ :=
        spelledBlock.enclosed
      obtain rfl := Spells.nil_iff.mp spelledNothing
      simp only [List.cons_append, List.append_assoc, List.nil_append, Cursor.past_cons,
        Cursor.past_append, Cursor.past_nil]
      rw [elseBranch_of_some (Token.of_symbol_sign other).2 opens]
      exact blocks shallow spelledInner closes shown

/-- A conditional, when blocks are executed as the tree says. -/
theorem conditionalStatement_mirrors (blocks : BlockMirrors block tree) {condition : Formula}
    {yes : List Stmt} (shallow : (Stmt.choose condition yes no).nesting ≤ limit)
    (spelled : Spells tokens (Stmt.choose condition yes no).symbols)
    (shown : machine.Shows limit .normal world) :
    Mirrors (EndsAt limit ⟨Cursor.past last tokens, ahead⟩)
      (conditionalStatement block (machine.move ⟨last, tokens ++ ahead⟩))
      ((do
        match ← World.evaluate condition with
        | .boolean true => tree yes
        | .boolean false => no.elim (pure .normal) fun stmts => tree stmts
        | value => throw (.failure (.condition value.ty)) : EStateM Stop World Completion)
            world) := by
  obtain ⟨shallowCondition, shallowYes, shallowNo⟩ : condition.nesting ≤ limit ∧
      Stmt.blockNesting yes ≤ limit ∧ Stmt.elseNesting no ≤ limit := by
    simpa only [Stmt.nesting, Nat.max_le] using shallow
  obtain ⟨word, opening, inner, closing, _, rfl, opens, spelledInner, closes, spelledYes⟩ :=
    spelled.headed
  obtain ⟨blockOpening, yesTokens, blockClosing, _, rfl, blockOpens, spelledBlock, blockCloses,
    spelledElse⟩ :=
    spelledYes.enclosed
  obtain ⟨elseTokens, _, rfl, spelledNo, spelledEnding⟩ := Spells.append_iff.mp spelledElse
  obtain ⟨ending, _, rfl, endSymbol, spelledNothing⟩ := Spells.cons_iff.mp spelledEnding
  obtain rfl := Spells.nil_iff.mp spelledNothing
  have ends := (Token.of_symbol_sign endSymbol).2
  simp only [List.cons_append, List.append_assoc, List.nil_append, Cursor.past_cons,
    Cursor.past_append, Cursor.past_nil]
  rw [conditionalStatement, bind_of_ok pass_move, bind_of_ok (expect_move opens _)]
  refine (evaluate_mirrors shallowCondition spelledInner
    (condition.ends_of_continues _ closes rfl) shown).bind ?_
  rintro value _ _ _ ⟨rfl, rfl, rfl⟩
  rw [bind_of_ok (expect_move closes _)]
  cases value with
  | boolean holds =>
      rw [branches, bind_of_ok (expect_move blockOpens _), bind_of_ok (note_move _)]
      have noted := shown.noted (.branched holds)
      cases holds with
      | true =>
          refine (blocks shallowYes spelledBlock blockCloses noted).followed fun reached => ?_
          rw [reached.eq_move, Bool.not_true, bind_of_ok (elseBranch_skips spelledNo ends)]
          exact ⟨(), _, expect_move ends _, rfl, reached.shown.move _⟩
      | false =>
          have skipped :
              branch block false ((machine.noted (.branched false)).move ⟨some blockOpening,
                yesTokens ++ blockClosing :: (elseTokens ++ ending :: ahead)⟩) =
                .ok () ((machine.noted (.branched false)).move ⟨some blockClosing,
                  elseTokens ++ ending :: ahead⟩) :=
            skipBlock_move spelledBlock blockCloses
          rw [bind_of_ok skipped]
          refine (elseBranch_mirrors blocks shallowNo spelledNo ends noted).followed
            fun reached => ?_
          rw [reached.eq_move]
          exact ⟨(), _, expect_move ends _, rfl, reached.shown.move _⟩
  | int _ | float _ | string _ | char _ | void | unknown => exact .error (shown.toHolds.move _)

/-! ## Loops -/

/-- A machine between two turns of a loop, or behind the last one: a break and a continue are
still to be settled. -/
structure Settles (limit : Nat) (machine : Machine) (completion : Completion)
    (world : World) : Prop
    extends Machine.Holds machine world where
  limited : machine.console.groupLimit = limit
  flags : machine.flags.settled = completion.flags
  returnValue : machine.returnValue = completion.returnValue

theorem Settles.settled {completion : Completion}
    (settles : Settles limit machine completion world) :
    machine.settled.Shows limit completion world :=
  ⟨⟨settles.env, settles.inputs, settles.output⟩, settles.limited, settles.flags,
    settles.returnValue⟩

/-- A machine that shows a completion, seen from the loop around it. -/
theorem Settles.of_shows {completion outer : Completion}
    (shown : machine.Shows limit completion world)
    (flags : completion.flags.settled = outer.flags)
    (returnValue : completion.returnValue = outer.returnValue) :
    Settles limit machine outer world :=
  ⟨shown.toHolds,
    shown.limited, by rw [shown.flags, flags], by rw [shown.returnValue, returnValue]⟩

/-- A way to execute the turns of a loop does what a way to run a loop does. -/
def TurnsMirror (turns : Cursor → Cursor → Exec Nat)
    (tree : Formula → List Stmt → EStateM Stop World Completion) :
    Prop :=
  ∀ {limit : Nat} {condition : Formula} {body : List Stmt}
    {inner block aheadInner aheadBlock : List Token}
    {closing blockClosing : Token} {last lastBlock : Option Token} {machine : Machine}
      {world : World},
    condition.nesting ≤ limit → Stmt.blockNesting body ≤ limit →
    Spells inner condition.symbols → closing.kind = .groupClose →
    Spells block (Stmt.blockSymbols body) → blockClosing.kind = .blockClose →
      Settles limit machine .normal world →
      Mirrors (fun _ => Settles limit)
        (turns ⟨last, inner ++ closing :: aheadInner⟩ ⟨lastBlock,
          block ++ blockClosing :: aheadBlock⟩ machine)
        (tree condition body world)

theorem loopStatement_mirrors {turns : Cursor → Cursor → Exec Nat}
    {treeLoop : Formula → List Stmt → EStateM Stop World Completion}
    (mirrors : TurnsMirror turns treeLoop) {condition : Formula} {body : List Stmt}
    (shallow : (Stmt.loop condition body).nesting ≤ limit)
    (spelled : Spells tokens (Stmt.loop condition body).symbols)
    (shown : machine.Shows limit .normal world) :
    Mirrors (EndsAt limit ⟨Cursor.past last tokens, ahead⟩)
      (loopStatement turns (machine.move ⟨last, tokens ++ ahead⟩))
      (treeLoop condition body world) := by
  obtain ⟨shallowCondition, shallowBody⟩ : condition.nesting ≤ limit ∧
      Stmt.blockNesting body ≤ limit := by
    simpa only [Stmt.nesting, Nat.max_le] using shallow
  obtain ⟨word, opening, inner, closing, _, rfl, opens, spelledInner, closes, spelledBody⟩ :=
    spelled.headed
  obtain ⟨blockOpening, block, blockClosing, _, rfl, blockOpens, spelledBlock, blockCloses,
    spelledEnding⟩ :=
    spelledBody.enclosed
  obtain ⟨ending, _, rfl, endSymbol, spelledNothing⟩ := Spells.cons_iff.mp spelledEnding
  obtain rfl := Spells.nil_iff.mp spelledNothing
  simp only [List.cons_append, List.append_assoc, List.nil_append, Cursor.past_cons,
    Cursor.past_append, Cursor.past_nil]
  rw [loopStatement, bind_of_ok pass_move, bind_of_ok (expect_move opens _), get_bind,
    bind_of_ok (closing_eq_ok.mpr ⟨closing?_group spelledInner closes, rfl⟩),
    bind_of_ok moveTo_move, bind_of_ok (expect_move blockOpens _), get_bind,
    bind_of_ok (closing_eq_ok.mpr ⟨closing?_block spelledBlock blockCloses, rfl⟩)]
  refine (mirrors shallowCondition shallowBody spelledInner closes spelledBlock blockCloses
    (.of_shows (shown.move _) rfl rfl)).followed ?_
  intro count after completion world turned
  exact ⟨(), _, expect_move (Token.of_symbol_sign endSymbol).2 _, rfl,
    (turned.settled.noted (.looped count)).move _⟩

/-- One turn of a loop and the turns behind it. -/
theorem turns_mirror {steps : Nat}
    (blocks : BlockMirrors (Exec.block steps) (Stmt.execBlock steps))
    (mirrors : ∀ count, TurnsMirror (fun condition body => turns steps condition body count)
      (Stmt.execTurns steps)) (count : Nat) :
    TurnsMirror (fun condition body => turns (steps + 1) condition body count)
      (Stmt.execTurns (steps + 1)) := by
  intro limit condition body inner block aheadInner aheadBlock closing blockClosing last
    lastBlock machine world
    shallowCondition shallowBody spelledInner closes spelledBlock blockCloses settles
  have shown := settles.settled
  have begun : settle machine = .ok () machine.settled := rfl
  have moved : moveTo ⟨last, inner ++ closing :: aheadInner⟩ machine.settled =
    .ok () (machine.settled.move ⟨last, inner ++ closing :: aheadInner⟩) := rfl
  simp only [turns]
  rw [bind_of_ok begun, bind_of_ok moved, Stmt.execTurns]
  refine (evaluate_mirrors shallowCondition spelledInner
    (condition.ends_of_continues _ closes rfl) shown).bind ?_
  rintro value _ _ _ ⟨rfl, rfl, rfl⟩
  rw [bind_of_ok (expect_move closes _)]
  cases value with
  | boolean holds =>
      cases holds with
      | false => exact .ok (.of_shows (shown.move _) rfl rfl)
      | true =>
          dsimp only
          rw [bind_of_ok moveTo_move]
          refine (blocks shallowBody spelledBlock blockCloses shown).bind ?_
          intro _ after completion world reached
          rw [get_bind, reached.shown.flags]
          cases completion with
          | normal | continued =>
              exact mirrors (count + 1) shallowCondition shallowBody spelledInner closes
                spelledBlock blockCloses (.of_shows reached.shown rfl rfl)
          | broke | returned value => exact .ok (.of_shows reached.shown rfl rfl)
  | int _ | float _ | string _ | char _ | void | unknown =>
      exact .ok (.of_shows ((shown.move _).noted _) rfl rfl)

/-! ## Statements and blocks -/

/-- A way to execute statements does what a way to run them does. -/
def StatementMirrors (statement : Exec Unit)
    (treeStatement : Stmt → EStateM Stop World Completion) : Prop :=
  ∀ {limit : Nat} {stmt : Stmt} {tokens ahead : List Token} {start final : Token}
    {last : Option Token} {machine : Machine}
    {world : World}, stmt.nesting ≤ limit → Spells tokens stmt.symbols → start.kind = .marker →
    final.kind = .marker → machine.Shows limit .normal world →
      Mirrors (EndsAt limit ⟨some final, ahead⟩)
        (statement (machine.move ⟨last, start :: (tokens ++ final :: ahead)⟩))
        (treeStatement stmt world)

variable {steps : Nat} {token : Token}

theorem statement_mirrors (blocks : BlockMirrors (Exec.block steps) (Stmt.execBlock steps))
    (mirrors : TurnsMirror (fun condition body => turns steps condition body 0)
      (Stmt.execTurns steps)) :
    StatementMirrors (statement (steps + 1)) (Stmt.exec (steps + 1)) := by
  intro limit stmt tokens ahead start final last machine world shallow spelled
    starts finals shown
  have body : Mirrors (EndsAt limit ⟨Cursor.past (some start) tokens, final :: ahead⟩)
      (statementBody (Exec.block steps) (fun condition body => turns steps condition body 0)
        (machine.move ⟨some start, tokens ++ final :: ahead⟩))
          (stmt.exec (steps + 1) world) := by
    cases stmt with
    | act action =>
        rw [Stmt.exec]
        exact action_mirrors action shallow spelled finals shown
    | choose condition yes no =>
        obtain ⟨first, isKind, same⟩ := statementBody_of_sign spelled
        rw [same, bodyOf, isKind, Stmt.exec]
        exact conditionalStatement_mirrors blocks shallow spelled shown
    | loop condition body =>
        obtain ⟨first, isKind, same⟩ := statementBody_of_sign spelled
        rw [same, bodyOf, isKind, Stmt.exec]
        exact loopStatement_mirrors mirrors shallow spelled shown
  rw [statement, bind_of_ok (expect_move starts _)]
  refine body.followed fun reached => ?_
  rw [reached.eq_move]
  exact ⟨(), _, expect_move finals _, rfl, reached.shown.move _⟩

theorem block_of_closer (closes : token.kind = .blockClose) :
    Exec.block (steps + 1) (machine.move ⟨last, token :: rest⟩) =
      .ok () (machine.move ⟨some token, rest⟩) := by
  rw [Exec.block, get_bind]
  simp only [Machine.move, closes, ↓reduceIte]
  rfl

theorem block_of_interrupted (other : token.kind ≠ .blockClose)
    (interrupted : machine.flags.interrupted = true) :
    Exec.block (steps + 1) (machine.move ⟨last, token :: rest⟩) =
      skipBlock (machine.move ⟨last, token :: rest⟩) := by
  rw [Exec.block, get_bind]
  simp only [Machine.move, other, interrupted, ↓reduceIte]

theorem block_of_uninterrupted (other : token.kind ≠ .blockClose)
    (goesOn : machine.flags.interrupted = false) :
    Exec.block (steps + 1) (machine.move ⟨last, token :: rest⟩) =
      (statement steps >>= fun _ => Exec.block steps) (machine.move ⟨last, token :: rest⟩) := by
  rw [Exec.block, get_bind]
  simp only [Machine.move, other, goesOn, Bool.false_eq_true, ↓reduceIte]

/-- The rest of an interrupted block is passed over. -/
theorem block_passes {stmts : List Stmt} {closing : Token}
    (spelled : Spells tokens (Stmt.blockSymbols stmts)) (closes : closing.kind = .blockClose)
    (interrupted : machine.flags.interrupted = true) :
    Exec.block (steps + 1) (machine.move ⟨last, tokens ++ closing :: ahead⟩) =
      .ok () (machine.move ⟨some closing, ahead⟩) := by
  cases stmts with
  | nil =>
      obtain rfl := Spells.nil_iff.mp spelled
      exact block_of_closer closes
  | cons stmt stmts =>
      obtain ⟨start, inner, final, back, shape, starts, -⟩ := spelled.statement
      have other : start.kind ≠ .blockClose := by
        rw [starts]
        decide
      rw [shape, List.cons_append,
        block_of_interrupted other interrupted, ← List.cons_append, ← shape]
      exact skipBlock_move spelled closes

theorem block_mirrors (statements : StatementMirrors (statement steps) (Stmt.exec steps))
    (blocks : BlockMirrors (Exec.block steps) (Stmt.execBlock steps)) :
    BlockMirrors (Exec.block (steps + 1)) (Stmt.execBlock (steps + 1)) := by
  intro limit stmts tokens ahead closing last machine world shallow spelled closes shown
  cases stmts with
  | nil =>
      obtain rfl := Spells.nil_iff.mp spelled
      rw [List.nil_append, block_of_closer closes, Stmt.execBlock]
      exact .ok ⟨rfl, shown.move _⟩
  | cons stmt stmts =>
      obtain ⟨shallowFirst, shallowRest⟩ := Stmt.blockNesting_cons_le.mp shallow
      obtain ⟨start, inner, final, back, rfl, starts, spelledInner, finals, spelledBack⟩ :=
        spelled.statement
      have goesOn : machine.flags.interrupted = false := by
        rw [shown.flags]
        rfl
      simp only [List.cons_append, List.append_assoc]
      rw [block_of_uninterrupted (by rw [starts]; decide) goesOn, Stmt.execBlock]
      -- A statement needs budget, so there is enough of it to pass over the rest when the
      -- statement interrupts.
      cases steps with
      | zero =>
          simp only [statement, Stmt.exec]
          exact .error (shown.toHolds.move _)
      | succ steps =>
          refine (statements shallowFirst spelledInner starts finals shown).bind ?_
          intro _ after completion world reached
          rw [reached.eq_move]
          cases completion with
          | normal => exact blocks shallowRest spelledBack closes reached.shown
          | broke | continued | returned value =>
              have interrupted : after.flags.interrupted = true := by
                rw [reached.shown.flags]
                rfl
              rw [block_passes spelledBack closes interrupted]
              exact .ok ⟨rfl, reached.shown.move _⟩

/-- **The machine does what the trees say, budget for budget.** -/
theorem machine_mirrors (steps : Nat) :
    StatementMirrors (statement steps) (Stmt.exec steps) ∧
      BlockMirrors (Exec.block steps) (Stmt.execBlock steps) ∧
      ∀ count, TurnsMirror (fun condition body => turns steps condition body count)
        (Stmt.execTurns steps) := by
  induction steps with
  | zero =>
      refine ⟨?_, ?_, fun count => ?_⟩
      · intro limit stmt tokens ahead start final last machine world _ _ _ _ shown
        rw [statement, Stmt.exec]
        exact .error (shown.toHolds.move _)
      · intro limit stmts tokens ahead closing last machine world _ _ _ shown
        rw [Exec.block, Stmt.execBlock]
        exact .error (shown.toHolds.move _)
      · intro limit condition body inner block aheadInner aheadBlock closing blockClosing last
          lastBlock machine world
          _ _ _ _ _ _ settles
        simp only [turns, Stmt.execTurns]
        exact .error settles.toHolds
  | succ steps ih =>
      obtain ⟨statements, blocks, mirrors⟩ := ih
      exact ⟨statement_mirrors blocks (mirrors 0), block_mirrors statements blocks,
        turns_mirror blocks mirrors⟩

/-- A program, whose statements are read up to the end of the tokens. -/
theorem statements_mirror (steps : Nat) {stmts : List Stmt}
    (shallow : Stmt.blockNesting stmts ≤ limit)
    (spelled : Spells tokens (Stmt.blockSymbols stmts))
    (shown : machine.Shows limit .normal world) :
    Mirrors (fun _ => Machine.Shows limit) (statements steps (machine.move ⟨last, tokens⟩))
      (Stmt.execBlock steps stmts world) := by
  induction steps generalizing stmts tokens last machine world with
  | zero =>
      rw [statements, Stmt.execBlock]
      exact .error (shown.toHolds.move _)
  | succ steps ih =>
      cases stmts with
      | nil =>
          obtain rfl := Spells.nil_iff.mp spelled
          rw [statements_of_finished (by rfl), Stmt.execBlock]
          exact .ok (shown.move _)
      | cons stmt stmts =>
          obtain ⟨shallowFirst, shallowRest⟩ := Stmt.blockNesting_cons_le.mp shallow
          obtain ⟨start, inner, final, back, rfl, starts, spelledInner, finals, spelledBack⟩ :=
            spelled.statement
          have goesOn : (machine.move ⟨last, start :: (inner ++ final :: back)⟩).finished =
              false := by
            rw [Machine.finished, Machine.move, shown.flags]
            rfl
          rw [statements_of_unfinished goesOn, Stmt.execBlock]
          cases steps with
          | zero =>
              simp only [statement, Stmt.exec]
              exact .error (shown.toHolds.move _)
          | succ steps =>
              refine ((machine_mirrors (steps + 1)).1 shallowFirst spelledInner starts finals
                shown).bind ?_
              intro _ after completion world reached
              rw [reached.eq_move]
              cases completion with
              | normal => exact ih shallowRest spelledBack reached.shown
              | broke | continued | returned value =>
                  have interrupted : (after.move ⟨some final, back⟩).finished = true := by
                    rw [Machine.finished, Machine.move, reached.shown.flags, Bool.or_eq_true]
                    exact .inr rfl
                  rw [statements_of_finished interrupted]
                  exact .ok (reached.shown.move _)

end Exec

/-! ## Whole programs -/

/-- What is known of a run afterwards: its ending, the input lines still to come and the lines
written. -/
structure Observation where
  ending : Ending
  inputs : List Text
  output : List Text
deriving DecidableEq

namespace Observation

/-- What is known of an ending and the console after it. -/
def ofRun (result : Ending × Console) : Observation :=
  ⟨result.1, result.2.feed.lines, result.2.output.toList⟩

/-- What is known of an outcome. -/
def ofOutcome : Outcome → Observation
  | .ok completion world =>
    ⟨.reported ⟨none, completion.returnValue, world.env.bindings, world.env.warnings⟩,
      world.inputs, world.output⟩
  | .error (.failure cause) world =>
    ⟨.reported ⟨some cause, none, world.env.bindings, world.env.warnings⟩,
      world.inputs, world.output⟩
  | .error .undefinedRemainder world => ⟨.undefinedRemainder, world.inputs, world.output⟩
  | .error .outOfSteps world => ⟨.outOfSteps, world.inputs, world.output⟩

theorem ofOutcome_settled {outcome : Outcome} :
    (ofOutcome outcome).ending ≠ .outOfSteps ↔ outcome.Settled := by
  constructor
  · rintro ends world rfl
    exact ends rfl
  · intro settled spent
    cases outcome with
    | ok completion world => cases spent
    | error stop world =>
        cases stop with
        | outOfSteps => exact settled world rfl
        | failure cause | undefinedRemainder => cases spent

theorem ofRun_conclude {result : EStateM.Result Stop Machine Unit} {outcome : Outcome}
    (mirrors : Mirrors (fun _ => Machine.Shows limit) result outcome) :
    ofRun (Program.conclude result) = ofOutcome outcome := by
  cases mirrors with
  | ok shown =>
      simp only [ofRun, Program.conclude, Program.report, Console.note_feed,
        Console.note_output, shown.env, shown.inputs, shown.output, shown.returnValue,
        ofOutcome, Option.isSome_none, Bool.false_eq_true, ↓reduceIte]
  | @error stop machine world holds =>
      cases stop with
      | failure cause =>
          simp only [ofRun, Program.conclude, Program.report, Console.note_feed,
            Console.note_output, holds.env, holds.inputs, holds.output, ofOutcome,
            Option.isSome_some, ↓reduceIte]
      | undefinedRemainder | outOfSteps =>
          simp only [ofRun, Program.conclude, holds.inputs, holds.output, ofOutcome]

end Observation

/-- The world before a program. -/
def World.start (strict : Bool) (console : Console) : World :=
  ⟨{ strict }, console.feed.lines, console.output.toList⟩

namespace Program

/-- Announcing tokens leaves the lines and the limit as they are. -/
theorem announce_lines (tokens : List Token) (console : Console) :
    (announce tokens console).feed = console.feed ∧
      (announce tokens console).output = console.output ∧
      (announce tokens console).groupLimit = console.groupLimit := by
  refine announce_keeps (fun after => after.feed = console.feed ∧
    after.output = console.output ∧
    after.groupLimit = console.groupLimit) ?_ tokens ⟨rfl, rfl, rfl⟩
  rintro after event ⟨sameFeed, sameOutput, sameLimit⟩
  exact ⟨(after.note_feed event).trans sameFeed, (after.note_output event).trans sameOutput,
    (after.note_groupLimit event).trans sameLimit⟩

theorem enter_shows (tokens : List Token) (strict : Bool) (console : Console) :
    (Machine.enter tokens { strict } (announce tokens console)).Shows console.groupLimit .normal
      (.start strict console) := by
  obtain ⟨sameFeed, sameOutput, sameLimit⟩ := announce_lines tokens console
  refine ⟨⟨rfl, ?_, ?_⟩, sameLimit, rfl, rfl⟩
  · rw [Machine.enter, sameFeed, World.start]
  · rw [Machine.enter, sameOutput, World.start]

/-- With the same budget, the machine and the interpreter of trees have the same to show for it.
-/
theorem run_observation (program : List Stmt)
    (spelled : Spells tokens (Stmt.blockSymbols program)) (steps : Nat) (strict : Bool)
    {console : Console} (shallow : Stmt.blockNesting program ≤ console.groupLimit) :
    .ofRun (run steps strict tokens console) =
      Observation.ofOutcome (Stmt.execBlock steps program (.start strict console)) := by
  rw [run_eq]
  exact Observation.ofRun_conclude (Exec.statements_mirror steps shallow spelled
    (enter_shows tokens strict console))

/-- **A run on the tokens of a program ends exactly as the program does as a tree**: with the
same report of the failure or the returned value, of the variables and of the warnings, with the
same lines written and the same input lines left. If the tree has no outcome, no budget is
enough for the run. This holds of the printed tokens, and of all others that spell the program.
-/
theorem run_iff_runs (program : List Stmt) :
    Spells (Stmt.tokens program) (Stmt.blockSymbols program) ∧
      ∀ tokens, Spells tokens (Stmt.blockSymbols program) →
        ∀ (strict : Bool) {console : Console}, Stmt.blockNesting program ≤ console.groupLimit →
          ∀ observation : Observation,
          (∃ steps, .ofRun (run steps strict tokens console) = observation ∧
            observation.ending ≠ .outOfSteps) ↔
            ∃ outcome, Runs (.block program) (.start strict console) outcome ∧
              .ofOutcome outcome = observation := by
  refine ⟨Stmt.spells_tokens program,
    fun tokens spelled strict console shallow observation => ⟨?_, ?_⟩⟩
  · rintro ⟨steps, rfl, ends⟩
    rw [run_observation program spelled steps strict shallow] at ends ⊢
    exact ⟨_, (exec_runs steps).2.1 _ _ (Observation.ofOutcome_settled.mp ends), rfl⟩
  · rintro ⟨outcome, runs, rfl⟩
    obtain ⟨least, enough⟩ := runs_exec runs
    refine ⟨least, ?_, Observation.ofOutcome_settled.mpr runs.settled⟩
    rw [run_observation program spelled least strict shallow]
    exact congrArg Observation.ofOutcome (enough least (Nat.le_refl least))

/-- Counts in a loop that a conditional breaks off at two, and returns the count. -/
def countingProgram : List Stmt :=
  let count : Expr (.chain .sum) := .single (.single (.var "a"))
  let number (n : Int64) : Expr (.chain .sum) := .single (.single (.literal (.int n)))
  [.act (.declare "a" (.single (.uncompared (number 0)))),
    .loop (.single (.compare count .lt (number 5)))
      [.act (.assign "a" .increase (.single (.uncompared (number 1)))),
        .choose (.single (.compare count .eq (number 2))) [.act .breakOff] none,
        .act (.print (.single (.uncompared count)))],
    .act (.giveBack (.single (.uncompared count)))]

theorem run_iff_runs_counting :
    Stmt.blockNesting countingProgram ≤ ({} : Console).groupLimit ∧
      Spells (Stmt.tokens countingProgram) (Stmt.blockSymbols countingProgram) ∧
      ∃ outcome, Runs (.block countingProgram) (.start false {}) outcome ∧
        .ofOutcome outcome =
          (⟨.reported ⟨none, some (.int 2), [("a", .int 2)], []⟩, [], ["1"]⟩ :
            Observation) := by
  have shallow : Stmt.blockNesting countingProgram ≤ ({} : Console).groupLimit := by decide
  obtain ⟨spelled, same⟩ := run_iff_runs countingProgram
  refine ⟨shallow, spelled, (same _ spelled false shallow _).mp ⟨40, ?_, nofun⟩⟩
  decide +kernel

end Program

end ToonScript
