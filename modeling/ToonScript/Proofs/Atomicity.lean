import ToonScript.Proofs.Variables
import ToonScript.Proofs.Tree.Printing

/-!
# Simple statements are atomic

A statement without a block reads its tokens, does one thing, and then wants its closing marker.
Everything that can go wrong while it reads goes wrong before the one thing is done, so a
statement that stops has done nothing at all, or it has done everything and only its closing
marker is missing (`Exec.simple_statement_atomic`). The one exception is an input line that
gives no value: it is taken from the feed all the same.

The first part is about stopping. A deed that stops leaves the machine as it was, up to its
place (`Deed.perform_untouched`), and a plan is atomic when only moves come before the deed that
does the one thing.

The second part is about the missing marker. A simple statement looks at most one token beyond
those it passes, and there a marker does as well as what it found. So what it has done at a
missing marker is what it does in front of a marker.
-/

set_option autoImplicit false

namespace ToonScript

open Token (Kind)

/-! ## Deeds that stop -/

/-- What a machine has become where a statement stops before it has done anything: it stands at
another place, or it has taken an input line that gives no value for its variable. -/
inductive Machine.Untouched (machine : Machine) : Stop → Machine → Prop where
  | moved {reason : Stop} (usual : reason.isInput = false) (cursor : Cursor) :
      Untouched machine reason { machine with cursor }
  | asked {name : Text} {current : Value} {error : InputError}
      (known : machine.env.bindings.get? name = some current)
      (unfit : Value.ofInput current.ty machine.console.read.1 = .error error)
      (cursor : Cursor) :
      Untouched machine (.failure (.input name error))
        { machine with cursor, console := machine.console.read.2 }

theorem Machine.Untouched.of_move {machine after : Machine} {cursor : Cursor} {reason : Stop}
    (untouched : { machine with cursor }.Untouched reason after) :
    machine.Untouched reason after := by
  cases untouched with
  | moved usual cursor => exact .moved usual cursor
  | asked known unfit cursor => exact @asked machine _ _ _ known unfit cursor

/-- Only the place and the feed may differ. -/
theorem Machine.Untouched.kept {machine after : Machine} {reason : Stop}
    (untouched : machine.Untouched reason after) :
    after.env = machine.env ∧ after.flags = machine.flags ∧
      after.returnValue = machine.returnValue ∧
      after.console.output = machine.console.output := by
  cases untouched <;> exact ⟨rfl, rfl, rfl, rfl⟩

theorem Stop.isInput_ofOperation (error : OperationError) :
    (Stop.ofOperation error).isInput = false := by
  cases error <;> rfl

/-- No deed stops because of an input line: only the conversion of the line does. -/
theorem Deed.isInput_of_error {deed : Deed} {machine after : Machine} {reason : Stop}
    (stops : deed.perform machine = .error reason after) : reason.isInput = false := by
  cases deed with
  | beginStatement | enterBlock | moveTo | place | peek | valueOf | read | write | note
      | giveBack | breakOff | goOn
  | settle | flags => cases stops
  | pass =>
      rw [(Exec.pass_eq_error stops).1]
      rfl
  | expect =>
      rw [(Exec.expect_eq_error stops).1]
      rfl
  | expectName =>
      rw [(Exec.expectName_eq_error stops).1]
      rfl
  | skipBlock =>
      rw [(Exec.skipBlock_eq_error stops).1]
      rfl
  | closing =>
      rw [(Exec.closing_eq_error stops).1]
      rfl
  | evaluate =>
      obtain ⟨cursor, evaluated, -⟩ := Exec.scan_eq_error.mp stops
      exact ((Expression.evaluate_proper _ _).stops evaluated).1
  | combine =>
      obtain ⟨rfl | ⟨op, current, error, -, -, -, rfl⟩, -⟩ := Exec.combine_eq_error stops
      · rfl
      · exact Stop.isInput_ofOperation error
  | declare =>
      rw [(Exec.declare_eq_error stops).1]
      rfl
  | assign =>
      obtain ⟨rfl | ⟨old, rfl⟩, -⟩ := Exec.assign_eq_error stops <;> rfl

/-- **A deed that stops has done nothing.** -/
theorem Deed.perform_untouched {deed : Deed} {machine after : Machine} {reason : Stop}
    (stops : deed.perform machine = .error reason after) : machine.Untouched reason after := by
  have usual := isInput_of_error stops
  by_cases isMove : deed.isMove
  · obtain ⟨cursor, rfl⟩ := (perform_moves isMove).stops stops
    exact .moved usual cursor
  · cases deed with
    | declare =>
        obtain ⟨-, rfl⟩ := Exec.declare_eq_error stops
        exact .moved usual _
    | assign =>
        obtain ⟨-, rfl⟩ := Exec.assign_eq_error stops
        exact .moved usual _
    | read | write | note | giveBack | breakOff | goOn | settle => cases stops
    | _ => exact absurd rfl isMove

/-! ## Plans that stop -/

namespace Plan

variable {α β : Type}

/-- A plan that has done nothing where it stops. -/
structure Atomic (plan : Plan α) : Prop where
  stops : ∀ {machine reason after}, plan.run machine = .error reason after →
    machine.Untouched reason after

theorem run_read_bind (next : Text → Plan α) (machine : Machine) :
    (perform .read >>= next).run machine =
      (next machine.console.read.1).run { machine with console := machine.console.read.2 } := rfl

namespace Atomic

theorem pure (result : α) : Atomic (pure result : Plan α) where
  stops carried := by cases carried

theorem stop {reason : Stop} (usual : reason.isInput = false) :
    Atomic (stop reason : Plan α) where
  stops carried := by
    cases carried
    exact .moved usual _

theorem perform (deed : Deed) : Atomic (perform deed) where
  stops carried := by
    rw [run_perform] at carried
    exact Deed.perform_untouched carried

/-- Moves may come before an atomic plan. -/
theorem move {deed : Deed} {next : deed.Result → Plan α} (isMove : deed.isMove)
    (atomicNext : ∀ result, Atomic (next result)) : Atomic (Plan.perform deed >>= next) where
  stops carried := by
    rw [run_bind, run_perform] at carried
    rcases bind_eq_error.mp carried with failed | ⟨result, middle, begun, ended⟩
    · exact Deed.perform_untouched failed
    · obtain ⟨cursor, rfl⟩ := (Deed.perform_moves isMove).succeeds begun
      exact ((atomicNext result).stops ended).of_move

/-- An event may be left behind a deed of any kind. -/
theorem noted (deed : Deed) (event : Event) :
    Atomic (Plan.perform deed >>= fun _ => Plan.perform (.note event)) where
  stops carried := by
    rw [run_bind, run_perform] at carried
    rcases bind_eq_error.mp carried with failed | ⟨_, _, _, ended⟩
    · exact Deed.perform_untouched failed
    · cases ended

theorem printStatement : Atomic printStatement :=
  move rfl fun _ => move rfl fun _ => move rfl fun _ => move rfl fun _ => perform _

theorem declarationStatement : Atomic declarationStatement :=
  move rfl fun _ => move rfl fun _ => move rfl fun _ => move rfl fun _ => noted _ _

theorem assignmentStatement (name : Text) (assignment : Exec.Assignment) :
    Atomic (assignmentStatement name assignment) := by
  refine move rfl fun current => ?_
  cases current with
  | none => exact stop rfl
  | some current =>
      exact move rfl fun _ => move rfl fun _ => move rfl fun _ => move rfl fun _ => noted _ _

theorem identifierStatement : Atomic identifierStatement := by
  have dropped : Atomic (do let _ ← Plan.perform .evaluate) := move rfl fun _ => pure ()
  refine move rfl fun target => move rfl fun sign => ?_
  split
  · exact assignmentStatement _ _
  · exact dropped

/-- The line is taken before it is converted, and a value that comes of it is assigned without
fail. -/
theorem inputStatement : Atomic inputStatement := by
  refine move rfl fun _ => move rfl fun _ => move rfl fun name => move rfl fun _ => ⟨?_⟩
  intro machine reason after carried
  rw [run_valueOf_bind] at carried
  cases known : machine.env.bindings.get? name with
  | none =>
      rw [known] at carried
      cases carried
      exact .moved rfl _
  | some current =>
      simp only [known] at carried
      rw [run_read_bind] at carried
      cases converted : Value.ofInput current.ty machine.console.read.1 with
      | error error =>
          rw [converted] at carried
          cases carried
          exact .asked known converted machine.cursor
      | ok value =>
          rw [converted] at carried
          obtain ⟨final, assigned, -⟩ := Machine.Undisturbed.assign
            (.refl { machine with console := machine.console.read.2 }) known
            (Value.ty_ofInput converted)
          have performed := (congrFun (run_perform (.assign name value)) _).trans assigned
          rw [run_bind, bind_of_ok performed] at carried
          cases carried

theorem returnStatement : Atomic returnStatement :=
  move rfl fun _ => move rfl fun _ => noted _ _

theorem breakStatement : Atomic breakStatement := move rfl fun _ => noted _ _

theorem continueStatement : Atomic continueStatement := move rfl fun _ => noted _ _

end Atomic

end Plan

/-! ## Other tokens ahead -/

/-- Tokens that do as well as others behind a statement: they start with the same token, or with
a marker. -/
def Token.Replaces (ahead' ahead : List Token) : Prop :=
  ahead'.head? = ahead.head? ∨ ahead'.head?.map Token.kind = some .marker

theorem Token.Replaces.append {ahead' ahead : List Token} (replaces : Replaces ahead' ahead)
    (front : List Token) : Replaces (front ++ ahead') (front ++ ahead) := by
  cases front with
  | nil => exact replaces
  | cons token front => exact .inl rfl

/-- The machine with other tokens ahead. -/
def Machine.facing (machine : Machine) (ahead : List Token) : Machine :=
  { machine with cursor := ⟨machine.cursor.last, ahead⟩ }

/-- The assignment that the second token ahead stands for. -/
def Cursor.assignment? (cursor : Cursor) : Option Exec.Assignment :=
  (cursor.peek 1).bind fun sign => Exec.assignment? sign.kind

section Replaced

variable {cursor : Cursor} {passed ahead behind : List Token}

theorem Cursor.peek_replaced (parts : cursor.rest = passed ++ behind)
    (opened : 1 ≤ passed.length) :
    Cursor.peek ⟨cursor.last, passed ++ ahead⟩ 0 = cursor.peek 0 := by
  rw [peek, peek, parts]
  cases passed with
  | nil => cases opened
  | cons target more => rfl

/-- Other tokens behind those that are passed do not turn a statement into an assignment or out
of one. -/
theorem Cursor.assignment?_replaced (parts : cursor.rest = passed ++ behind)
    (replaces : Token.Replaces ahead behind) (opened : 1 ≤ passed.length)
    (signPassed : 2 ≤ passed.length ∨ cursor.assignment? = none) :
    Cursor.assignment? ⟨cursor.last, passed ++ ahead⟩ = cursor.assignment? := by
  obtain ⟨last, rest⟩ := cursor
  obtain rfl : rest = passed ++ behind := parts
  cases passed with
  | nil => cases opened
  | cons target more =>
      cases more with
      | cons sign more => rfl
      | nil =>
          have unsigned := signPassed.resolve_left (Nat.not_succ_le_self 1)
          simp only [assignment?, peek, List.singleton_append, List.getElem?_cons_succ,
            ← List.head?_eq_getElem?] at unsigned ⊢
          rcases replaces with sameHead | isMarker
          · rw [sameHead]
          · obtain ⟨marker, isFirst, isMarker⟩ := Option.map_eq_some_iff.mp isMarker
            rw [unsigned, isFirst, Option.bind_some, isMarker]
            rfl

end Replaced

/-- The deeds that do not look at the tokens. -/
def Deed.isBlind : Deed → Bool
  | combine _ _ _ | valueOf _ | declare _ _ | assign _ _ | read | write _ | note _ => true
  | giveBack _ | breakOff | goOn => true
  | _ => false

theorem Deed.perform_blind {deed : Deed} (isBlind : deed.isBlind) {machine after : Machine}
    {result : deed.Result} (performed : deed.perform machine = .ok result after) :
    machine.cursor = after.cursor ∧
      ∀ ahead, deed.perform (machine.facing ahead) = .ok result (after.facing ahead) := by
  cases deed with
  | valueOf | read | write | note | giveBack | breakOff | goOn =>
      cases performed
      exact ⟨rfl, fun _ => rfl⟩
  | combine name operand assignment =>
      cases assignment with
      | plain =>
          cases performed
          exact ⟨rfl, fun _ => rfl⟩
      | combined op =>
          obtain ⟨current, middle, found, operated⟩ := bind_eq_ok.mp performed
          obtain ⟨known, rfl⟩ := Exec.lookup_eq_ok found
          obtain ⟨cursor, computed, rfl⟩ := Exec.scan_eq_ok.mp operated
          obtain ⟨applied, rfl⟩ := Expression.operate_eq_ok computed
          refine ⟨rfl, fun ahead => ?_⟩
          have found' : Exec.lookup name (machine.facing ahead) =
              .ok current (machine.facing ahead) := by
            simp only [Exec.lookup, get_bind, Environment.lookup, Machine.facing, known]
            rfl
          refine (bind_of_ok found').trans (Exec.scan_of_ok ?_)
          rw [applied]
          rfl
  | declare name value =>
      simp only [perform, Exec.declare, get_bind] at performed ⊢
      cases declared : machine.env.declare name value with
      | ok env =>
          rw [declared] at performed
          cases performed
          refine ⟨rfl, fun ahead => ?_⟩
          rw [Machine.facing, declared]
          rfl
      | error cause =>
          rw [declared] at performed
          cases performed
  | assign name value =>
      simp only [perform] at performed ⊢
      cases assigned : machine.env.assign name value with
      | error cause =>
          rw [Exec.assign_of_error assigned] at performed
          cases performed
      | ok outcome =>
          obtain ⟨env, mismatch⟩ := outcome
          cases mismatch with
          | none =>
              rw [Exec.assign_of_agreeing assigned] at performed
              cases performed
              exact ⟨rfl, fun ahead => Exec.assign_of_agreeing assigned⟩
          | some mismatch =>
              rw [Exec.assign_of_mismatch assigned] at performed
              cases performed
              exact ⟨rfl, fun ahead => Exec.assign_of_mismatch assigned⟩
  | _ => cases isBlind

namespace Plan

variable {α β : Type} {least leastNext : Nat}

/-- A plan that succeeds by what it passes, which is a number of tokens at least, and by at most
one token more. -/
structure Shortsighted (least : Nat) (plan : Plan α) : Prop where
  succeeds : ∀ {machine result after}, plan.run machine = .ok result after →
    ∃ passed, least ≤ passed.length ∧ machine.cursor.rest = passed ++ after.cursor.rest ∧
      ∀ ahead, Token.Replaces ahead after.cursor.rest →
        plan.run (machine.facing (passed ++ ahead)) = .ok result (after.facing ahead)

/-- The plan of a statement that starts with an identifier, by its first token and the
assignment behind it. -/
def identifierBody (target : Option Token) (assignment : Option Exec.Assignment) : Plan Unit :=
  match target, assignment with
  | some target, some assignment => assignmentStatement target.lexeme assignment
  | _, _ => do
    let _ ← perform .evaluate

theorem run_identifierStatement_eq (machine : Machine) :
    identifierStatement.run machine =
      (identifierBody (machine.cursor.peek 0) machine.cursor.assignment?).run machine := rfl

namespace Shortsighted

theorem bind {plan : Plan α} {next : α → Plan β} (shortsighted : Shortsighted least plan)
    (shortsightedNext : ∀ result, Shortsighted leastNext (next result)) :
    Shortsighted (least + leastNext) (plan >>= next) where
  succeeds carried := by
    rw [run_bind] at carried
    obtain ⟨result, middle, begun, ended⟩ := bind_eq_ok.mp carried
    obtain ⟨front, enough, parts, same⟩ := shortsighted.succeeds begun
    obtain ⟨back, enoughBack, partsBack, sameBack⟩ := (shortsightedNext result).succeeds ended
    refine ⟨front ++ back, ?_, ?_, fun ahead replaces => ?_⟩
    · rw [List.length_append]
      exact Nat.add_le_add enough enoughBack
    · rw [parts, partsBack, List.append_assoc]
    · have replacesBack : Token.Replaces (back ++ ahead) middle.cursor.rest := by
        rw [partsBack]
        exact replaces.append back
      rw [run_bind, List.append_assoc, bind_of_ok (same _ replacesBack)]
      exact sameBack ahead replaces

theorem mono {plan : Plan α} (fewer : leastNext ≤ least)
    (shortsighted : Shortsighted least plan) :
    Shortsighted leastNext plan where
  succeeds carried := by
    obtain ⟨passed, enough, rest⟩ := shortsighted.succeeds carried
    exact ⟨passed, Nat.le_trans fewer enough, rest⟩

theorem pure (result : α) : Shortsighted 0 (pure result : Plan α) where
  succeeds carried := by
    cases carried
    exact ⟨[], Nat.le_refl _, rfl, fun ahead _ => rfl⟩

theorem stop (reason : Stop) : Shortsighted least (stop reason : Plan α) where
  succeeds carried := by cases carried

theorem blind {deed : Deed} (isBlind : deed.isBlind) : Shortsighted 0 (perform deed) where
  succeeds carried := by
    rw [run_perform] at carried ⊢
    obtain ⟨sameCursor, same⟩ := Deed.perform_blind isBlind carried
    exact ⟨[], Nat.le_refl _, by rw [sameCursor, List.nil_append], fun ahead _ => same ahead⟩

theorem pass : Shortsighted 1 (perform .pass) where
  succeeds carried := by
    rw [run_perform] at carried ⊢
    obtain ⟨token, rest, parts, rfl⟩ := Exec.pass_eq_ok.mp carried
    exact ⟨[token], Nat.le_refl _, parts,
      fun ahead _ => Exec.pass_eq_ok.mpr ⟨token, ahead, rfl, rfl⟩⟩

theorem expect (kind : Kind) (context : Text) :
    Shortsighted 1 (perform (.expect kind context)) where
  succeeds carried := by
    rw [run_perform] at carried ⊢
    obtain ⟨token, rest, parts, wanted, rfl⟩ := Exec.expect_eq_ok.mp carried
    exact ⟨[token], Nat.le_refl _, parts,
      fun ahead _ => Exec.expect_eq_ok.mpr ⟨token, ahead, rfl, wanted, rfl⟩⟩

theorem expectName (context : Text) : Shortsighted 1 (perform (.expectName context)) where
  succeeds carried := by
    rw [run_perform] at carried ⊢
    obtain ⟨token, rest, parts, wanted, named, rfl⟩ := Exec.expectName_eq_ok.mp carried
    exact ⟨[token], Nat.le_refl _, parts,
      fun ahead _ => Exec.expectName_eq_ok.mpr ⟨token, ahead, rfl, wanted, named, rfl⟩⟩

/-- An expression ends in front of a marker wherever it ends. -/
theorem evaluate : Shortsighted 1 (perform .evaluate) where
  succeeds carried := by
    rw [run_perform] at carried ⊢
    obtain ⟨cursor, evaluated, rfl⟩ := Exec.evaluate_eq_ok.mp carried
    obtain ⟨formula, tokens, spelled, shallow, valued, parts, isLast, ends⟩ :=
      Expression.evaluate_eq_ok_iff.mp evaluated
    have someTokens : tokens ≠ [] := by
      rintro rfl
      exact formula.symbols_ne_nil spelled.symm
    refine ⟨tokens, List.length_pos_iff.mpr someTokens, parts, fun ahead replaces => ?_⟩
    have endsThere : formula.Ends ahead := by
      intro token next
      rcases replaces with sameHead | isMarker
      · exact ends token (sameHead ▸ next)
      · rw [next, Option.map_some, Option.some.injEq] at isMarker
        exact formula.continuedBy_eq_false (isMarker ▸ rfl)
    exact Exec.evaluate_eq_ok.mpr ⟨⟨cursor.last, ahead⟩, Expression.evaluate_eq_ok_iff.mpr
      ⟨formula, tokens, spelled, shallow, valued, rfl, isLast, endsThere⟩, rfl⟩

theorem printStatement : Shortsighted 1 printStatement :=
  mono (Nat.le_add_right 1 _) <| bind pass fun _ => bind (expect _ _) fun _ =>
    bind evaluate fun _ => bind (expect _ _) fun _ => blind rfl

theorem declarationStatement : Shortsighted 1 declarationStatement :=
  mono (Nat.le_add_right 1 _) <| bind pass fun _ => bind (expectName _) fun _ =>
    bind (expect _ _) fun _ => bind evaluate fun _ => bind (blind rfl) fun _ => blind rfl

theorem assignTo (name : Text) (assignment : Exec.Assignment) :
    Shortsighted 1 (assignTo name assignment) :=
  mono (Nat.le_add_right 1 _) <| bind evaluate fun _ => bind (blind rfl) fun _ =>
    bind (blind rfl) fun _ => blind rfl

theorem assignmentStatement (name : Text) (assignment : Exec.Assignment) :
    Shortsighted 3 (assignmentStatement name assignment) := by
  refine mono (Nat.le_add_left 3 0) (bind (blind rfl) fun current => ?_)
  cases current with
  | none => exact stop _
  | some current => exact bind pass fun _ => bind pass fun _ => assignTo name assignment

theorem identifierBody (target : Option Token) (assignment : Option Exec.Assignment) :
    Shortsighted (if target.isSome && assignment.isSome then 2 else 1)
      (identifierBody target assignment) := by
  have dropped : Shortsighted 1 (do let _ ← perform .evaluate) := bind evaluate fun _ => pure ()
  cases target with
  | none => exact dropped
  | some target =>
      cases assignment with
      | none => exact dropped
      | some assignment =>
          exact mono (Nat.le_succ 2) (assignmentStatement target.lexeme assignment)

/-- The sign of an assignment is passed, and where there is none, no other token takes its
place. -/
theorem identifierStatement : Shortsighted 1 identifierStatement where
  succeeds {machine result after} carried := by
    rw [run_identifierStatement_eq] at carried
    obtain ⟨passed, enough, parts, same⟩ := (identifierBody _ _).succeeds carried
    have opened : 1 ≤ passed.length := by
      split at enough
      · exact Nat.le_of_succ_le enough
      · exact enough
    have signPassed : 2 ≤ passed.length ∨ machine.cursor.assignment? = none := by
      cases known : machine.cursor.assignment? with
      | none => exact .inr rfl
      | some assignment =>
          obtain ⟨sign, isSign, -⟩ := Option.bind_eq_some_iff.mp known
          obtain ⟨long, -⟩ := List.getElem?_eq_some_iff.mp isSign
          have isTarget : (machine.cursor.peek 0).isSome :=
            Option.isSome_iff_exists.mpr ⟨_, List.getElem?_eq_getElem (Nat.lt_of_succ_lt long)⟩
          rw [known, isTarget] at enough
          exact .inl enough
    refine ⟨passed, opened, parts, fun ahead replaces => ?_⟩
    rw [run_identifierStatement_eq, ← same ahead replaces, ← Cursor.peek_replaced parts opened,
      ← Cursor.assignment?_replaced parts replaces opened signPassed]
    rfl

theorem inputStatement : Shortsighted 1 inputStatement := by
  refine mono (Nat.le_add_right 1 (1 + (1 + (1 + (0 + 0))))) <| bind pass fun _ =>
    bind (expect _ _) fun _ => bind (expectName _) fun name => bind (expect _ _) fun _ =>
      bind (blind rfl) fun current => ?_
  cases current with
  | none => exact stop _
  | some current =>
      refine mono (Nat.zero_le (0 + (0 + 0))) <| bind (blind rfl) fun line => ?_
      cases Value.ofInput current.ty line with
      | error error => exact stop _
      | ok value => exact bind (blind rfl) fun _ => blind rfl

theorem returnStatement : Shortsighted 1 returnStatement :=
  mono (Nat.le_add_right 1 _) <| bind pass fun _ => bind evaluate fun _ =>
    bind (blind rfl) fun _ => blind rfl

theorem breakStatement : Shortsighted 1 breakStatement :=
  bind pass fun _ => bind (blind rfl) fun _ => blind rfl

theorem continueStatement : Shortsighted 1 continueStatement :=
  bind pass fun _ => bind (blind rfl) fun _ => blind rfl

end Shortsighted

end Plan

/-! ## Statements without blocks -/

/-- A token that starts neither a conditional nor a loop. -/
def Token.StartsSimple (token : Token) : Prop := token.kind ≠ .ifKw ∧ token.kind ≠ .whileKw

namespace Plan

/-- The plan of a statement without a block, by its first token. -/
def simpleBody (next : Option Token) : Plan Unit :=
  match next.map Token.kind with
  | some .printKw => printStatement
  | some .varKw => declarationStatement
  | some .identifier => identifierStatement
  | some .inputKw => inputStatement
  | some .returnKw => returnStatement
  | some .breakKw => breakStatement
  | some .continueKw => continueStatement
  | _ => stop (.failure (.structural .invalidStatement next))

theorem simpleBody_atomic (next : Option Token) : Atomic (simpleBody next) := by
  rw [simpleBody]
  split
  · exact .printStatement
  · exact .declarationStatement
  · exact .identifierStatement
  · exact .inputStatement
  · exact .returnStatement
  · exact .breakStatement
  · exact .continueStatement
  · exact .stop rfl

theorem simpleBody_shortsighted (next : Option Token) : Shortsighted 1 (simpleBody next) := by
  rw [simpleBody]
  split
  · exact .printStatement
  · exact .declarationStatement
  · exact .identifierStatement
  · exact .inputStatement
  · exact .returnStatement
  · exact .breakStatement
  · exact .continueStatement
  · exact .stop _

section Body

variable {block : Plan Unit} {turns : Cursor → Cursor → Plan Nat} {machine after : Machine}

theorem run_statementBody_simple
    (simple : ∀ token, machine.cursor.peek 0 = some token → token.StartsSimple) :
    (statementBody block turns).run machine =
      (simpleBody (machine.cursor.peek 0)).run machine := by
  rw [statementBody, run_peek_bind]
  cases first : machine.cursor.peek 0 with
  | none => rfl
  | some token =>
      obtain ⟨notIf, notWhile⟩ := simple token first
      simp only [simpleBody, Option.map_some]
      cases kind : token.kind with
      | ifKw => exact absurd kind notIf
      | whileKw => exact absurd kind notWhile
      | _ => rfl

theorem statementBody_facing
    (simple : ∀ token, machine.cursor.peek 0 = some token → token.StartsSimple)
    (carried : (statementBody block turns).run machine = .ok () after) :
    ∃ passed, machine.cursor.rest = passed ++ after.cursor.rest ∧
      ∀ ahead, Token.Replaces ahead after.cursor.rest →
        (statementBody block turns).run (machine.facing (passed ++ ahead)) =
          .ok () (after.facing ahead) := by
  rw [run_statementBody_simple simple] at carried
  obtain ⟨passed, opened, parts, same⟩ := (simpleBody_shortsighted _).succeeds carried
  refine ⟨passed, parts, fun ahead replaces => ?_⟩
  have sameFirst : (machine.facing (passed ++ ahead)).cursor.peek 0 = machine.cursor.peek 0 :=
    Cursor.peek_replaced parts opened
  rw [run_statementBody_simple (sameFirst ▸ simple), sameFirst]
  exact same ahead replaces

end Body

end Plan

/-- **A simple statement that stops has done nothing, or everything.** Either the machine is as
it was but for its place and, if an input line gave no value, for that line; or the closing
marker is missing, and the machine is as the statement leaves it when the marker is there.
Evaluating an expression never changes anything but the place. -/
theorem Exec.simple_statement_atomic (steps : Nat) (machine : Machine) :
    ((∀ token, machine.cursor.peek 1 = some token → token.StartsSimple) →
      ∀ reason after, statement steps machine = .error reason after →
        machine.Untouched reason after ∨
        reason = .failure (.structural (.expected .marker "at end of statement")
          after.cursor.rest.head?) ∧
          ∃ passed, machine.cursor.rest = passed ++ after.cursor.rest ∧
            ∀ marker rest, marker.kind = .marker →
              statement steps (machine.facing (passed ++ marker :: rest)) =
                .ok () { after with cursor := ⟨some marker, rest⟩ }) ∧
    (∀ value after, evaluate machine = .ok value after →
      ∃ cursor, after = { machine with cursor }) ∧
    ∀ reason after, evaluate machine = .error reason after →
      ∃ cursor, after = { machine with cursor } := by
  have moves : Moves evaluate := Deed.perform_moves (rfl : Deed.evaluate.isMove = true)
  refine ⟨fun simple reason after fails => ?_, fun _ _ => moves.succeeds,
    fun _ _ => moves.stops⟩
  cases steps with
  | zero =>
      cases fails
      exact .inl (.moved rfl _)
  | succ steps =>
      have body := Plan.run_statementBody (Plan.run_block steps) fun condition body =>
        Plan.run_turns steps condition body 0
      rw [statement, ← body] at fails
      rcases bind_eq_error.mp fails with unopened | ⟨_, middle, opened, fails⟩
      · obtain ⟨rfl, rfl⟩ := expect_eq_error unopened
        exact .inl (.moved rfl _)
      · obtain ⟨opening, inner, parts, isOpening, rfl⟩ := expect_eq_ok.mp opened
        have simpleBody : ∀ token, Cursor.peek ⟨some opening, inner⟩ 0 = some token →
            token.StartsSimple := by
          rw [Cursor.peek, parts] at simple
          exact simple
        rcases bind_eq_error.mp fails with stopped | ⟨_, finish, done, unclosed⟩
        · rw [Plan.run_statementBody_simple simpleBody] at stopped
          exact .inl ((Plan.simpleBody_atomic _).stops stopped).of_move
        · obtain ⟨rfl, rfl⟩ := expect_eq_error unclosed
          obtain ⟨passed, partsInner, same⟩ := Plan.statementBody_facing simpleBody done
          refine .inr ⟨rfl, opening :: passed, ?_, fun marker rest isMarker => ?_⟩
          · rw [parts, List.cons_append, ← partsInner]
          · have again := same (marker :: rest) (.inr (congrArg some isMarker))
            rw [statement, ← body, bind_of_ok (expect_of_kind rfl isOpening _)]
            exact (bind_of_ok again).trans (expect_of_kind rfl isMarker _)

/-- A machine whose statement assigns a text to a number, with no closing marker. -/
def Machine.unclosed : Machine where
  cursor :=
    .start ([.sign .marker, .name "x", .sign .assign, .literal (.string "a")].map Symbol.token)
  env := { strict := false, bindings := [("x", .int 1)] }

/-- A machine whose statement asks for a number, and whose next line is none. -/
def Machine.misled : Machine where
  cursor :=
    .start ([.sign .marker, .sign .inputKw, .sign .groupOpen, .name "x", .sign .groupClose,
      .sign .marker].map Symbol.token)
  env := { strict := false, bindings := [("x", .int 1)] }
  console := { feed := { lines := ["a", "2"] } }

/-- The assignment has been done with its warning, as it is with the marker. The input has taken
one line and done nothing else. -/
theorem Exec.simple_statement_atomic_unclosed :
    (∃ after passed, statement 1 .unclosed =
        .error (.failure (.structural (.expected .marker "at end of statement") none)) after ∧
      after.env =
        { strict := false, bindings := [("x", .string "a")],
          mismatches := #[⟨"x", .int, .string⟩] } ∧
      statement 1 (Machine.facing .unclosed (passed ++ [Symbol.token (.sign .marker)])) =
        .ok () { after with cursor := ⟨some (Symbol.token (.sign .marker)), []⟩ }) ∧
    ∃ after, statement 1 .misled = .error (.failure (.input "x" (.notInteger "a"))) after ∧
      Machine.misled.Untouched (.failure (.input "x" (.notInteger "a"))) after := by
  have unclosed : statement 1 .unclosed =
      .error (.failure (.structural (.expected .marker "at end of statement") none))
        { Machine.unclosed with
          cursor := ⟨some (Symbol.token (.literal (.string "a"))), []⟩
          env :=
            { strict := false, bindings := [("x", .string "a")],
              mismatches := #[⟨"x", .int, .string⟩] } } := by
    decide +kernel
  have misled : statement 1 .misled = .error (.failure (.input "x" (.notInteger "a")))
      { Machine.misled with
        cursor := ⟨some (Symbol.token (.sign .groupClose)), [Symbol.token (.sign .marker)]⟩
        console := { feed := ⟨["2"], 1⟩ } } := by
    decide +kernel
  refine ⟨?_, _, misled, ?_⟩
  · rcases (simple_statement_atomic 1 .unclosed).1
      (by rintro token ⟨⟩; exact ⟨nofun, nofun⟩) _ _ unclosed with
      untouched | ⟨-, passed, -, closed⟩
    · exact absurd untouched.kept.1 (by decide)
    · exact ⟨_, passed, unclosed, rfl, closed _ [] rfl⟩
  · rcases (simple_statement_atomic 1 .misled).1
      (by rintro token ⟨⟩; exact ⟨nofun, nofun⟩) _ _ misled with
      untouched | ⟨impossible, -⟩
    · exact untouched
    · cases impossible

end ToonScript
