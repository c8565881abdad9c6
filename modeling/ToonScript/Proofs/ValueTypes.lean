import Mathlib.Algebra.Ring.Int.Defs
import ToonScript.Proofs.Discipline
import ToonScript.Proofs.Forward
import ToonScript.Proofs.Written
import ToonScript.Token.Dump

/-!
# The values of a run

Values come into a run as literals and input lines, and operators make new ones. Two things are
proved of all the values that a run has at any moment: those that are bound, the one that is
returned, and those of expressions.

Each of them has a payload that its type admits: an integer within 64 bits, a character that is
one character. And where the tokens come from a source text, each of them is of a plain type.
There is no way to write down a value of one of the other types: no literal has one, every
operator gives a plain value, and input takes the type of the variable. So a plain program keeps
everything plain (`Deed.perform_keeps`, `Plan.statements_keeps`), asks for no input that cannot
be given, and never prints the text of a missing value.
-/

set_option autoImplicit false

namespace ToonScript

open Token (Kind)

/-! ## Payloads -/

/-- The payloads that a type admits, in the data format. -/
def Ty.Admits : Ty → Json → Prop
  | int, .int n => -2 ^ 63 ≤ n ∧ n ≤ 2 ^ 63 - 1
  | float, .float _ => True
  | boolean, .bool _ => True
  | string, .str _ => True
  | char, .str text => text.points.length = 1
  | void, .null => True
  | unknown, .null => True
  | _, _ => False

theorem Value.ty_admits (value : Value) : value.ty.Admits value.toData := by
  cases value with
  | int n => exact ⟨Int64.le_toInt n, Int64.toInt_le n⟩
  | char c => exact List.length_singleton
  | float | boolean | string | void | unknown => trivial

/-! ## Plain types -/

/-- The types whose values a source text can come to: all but `char`, `void` and `unknown`. -/
def Ty.isPlain : Ty → Bool
  | int | float | boolean | string => true
  | char | void | unknown => false

theorem ArithmeticOp.apply_isPlain {op : ArithmeticOp} {left right value : Value}
    (applied : op.apply left right = .ok value) : value.ty.isPlain := by
  have integers : ∀ a b, integerArithmetic op a b = .ok value → value.ty.isPlain := by
    intro a b computed
    unfold integerArithmetic at computed
    repeat' split at computed
    all_goals cases computed
    all_goals rfl
  have doubles : ∀ a b, floatArithmetic op a b = .ok value → value.ty.isPlain := by
    intro a b computed
    unfold floatArithmetic at computed
    repeat' split at computed
    all_goals cases computed
    all_goals rfl
  unfold apply at applied
  split at applied
  · cases applied
    rfl
  · exact integers _ _ applied
  · exact doubles _ _ applied
  · exact doubles _ _ applied
  · exact doubles _ _ applied
  · cases applied

theorem ComparisonOp.apply_isPlain {op : ComparisonOp} {left right value : Value}
    (applied : op.apply left right = .ok value) : value.ty.isPlain := by
  unfold apply at applied
  repeat' split at applied
  all_goals cases applied
  all_goals rfl

theorem LogicalOp.apply_isPlain {op : LogicalOp} {left right value : Value}
    (applied : op.apply left right = .ok value) : value.ty.isPlain := by
  unfold apply at applied
  split at applied
  all_goals cases applied
  all_goals rfl

theorem Sign.apply_isPlain {level : Level} {sign : Sign level} {left right value : Value}
    (applied : sign.apply left right = .ok value) : value.ty.isPlain := by
  cases sign with
  | divide | mod | power | plus | minus => exact ArithmeticOp.apply_isPlain applied
  | and | andAnd | or | orOr => exact LogicalOp.apply_isPlain applied

/-- An input line gives a value of the type that was asked for. -/
theorem Value.ty_ofInput {ty : Ty} {line : Text} {value : Value}
    (read : ofInput ty line = .ok value) :
    value.ty = ty := by
  cases ty with
  | int =>
      simp only [ofInput, readIntegerLine] at read
      repeat' split at read
      all_goals cases read
      rfl
  | float =>
      simp only [ofInput] at read
      split at read
      all_goals cases read
      rfl
  | boolean =>
      simp only [ofInput, readBooleanLine] at read
      repeat' split at read
      all_goals cases read
      all_goals rfl
  | string =>
      cases read
      rfl
  | char =>
      simp only [ofInput, ofSingleton?] at read
      split at read
      · next single =>
          split at single
          · cases single
            cases read
            rfl
          · cases single
      · cases read
  | void | unknown => cases read

/-- Only the types that no source text comes to take no input. -/
theorem Value.ofInput_ne_noInput {ty : Ty} {line : Text} (plain : ty.isPlain)
    {error : InputError} (refused : ofInput ty line = .error error) (missing : Ty) :
    error ≠ .noInput missing := by
  rintro rfl
  cases ty with
  | int =>
      simp only [ofInput, readIntegerLine] at refused
      repeat' split at refused
      all_goals cases refused
  | float =>
      simp only [ofInput] at refused
      split at refused
      all_goals cases refused
  | boolean =>
      simp only [ofInput, readBooleanLine] at refused
      repeat' split at refused
      all_goals cases refused
  | string => cases refused
  | char | void | unknown => cases plain

/-! ## Literals of source texts -/

theorem Token.classifyParts_isPlain {chunk : String} {value : Value}
    (carried : (classifyParts chunk).2 = some value) : value.ty.isPlain := by
  unfold classifyParts at carried
  split at carried
  · next kind known =>
      cases kind <;> cases carried
      all_goals rfl
  · unfold classifyFree at carried
    repeat' split at carried
    all_goals cases carried
    all_goals rfl

/-- Every literal of the tokens is of a plain type. -/
def PlainLiterals (tokens : List Token) : Prop :=
  ∀ token ∈ tokens, ∀ value, token.literal = some value → value.ty.isPlain

theorem Token.ofSource_plainLiterals (source : String) : PlainLiterals (ofSource source) := by
  intro token member value carried
  obtain ⟨chunk, line, rfl, -⟩ := mem_ofLinesFrom member
  exact classifyParts_isPlain carried

/-! ## Values of expressions -/

/-- Every bound value is of a plain type. -/
def PlainBindings (bindings : Bindings) : Prop := ∀ entry ∈ bindings, entry.2.ty.isPlain

theorem Bindings.mem_of_get? {bindings : Bindings} {name : Text} {value : Value}
    (known : bindings.get? name = some value) : (name, value) ∈ bindings := by
  induction bindings with
  | nil => cases known
  | cons entry rest ih =>
      obtain ⟨key, bound⟩ := entry
      by_cases same : key = name
      · simp only [get?, same, ↓reduceIte, Option.some.injEq] at known
        rw [known, same]
        exact List.mem_cons_self
      · simp only [get?, same, ↓reduceIte] at known
        exact List.mem_cons_of_mem _ (ih known)

/-- Assigning binds the value to the name and leaves the other entries. -/
theorem Bindings.mem_set {bindings : Bindings} {name : Text} {value : Value}
    {entry : Text × Value} (member : entry ∈ bindings.set name value) :
    entry = (name, value) ∨ entry ∈ bindings := by
  induction bindings with
  | nil => cases member
  | cons first rest ih =>
      obtain ⟨key, bound⟩ := first
      by_cases same : key = name
      · simp only [set, same, ↓reduceIte, List.mem_cons] at member
        rcases member with here | later
        · exact .inl here
        · exact .inr (List.mem_cons_of_mem _ later)
      · simp only [set, same, ↓reduceIte, List.mem_cons] at member
        rcases member with here | later
        · exact .inr (here ▸ List.mem_cons_self)
        · exact (ih later).imp_right (List.mem_cons_of_mem _)

/-- Where two operands and an operator have a value, the operator gives it. -/
theorem operands_eq_ok {left right : Except Stop Value}
    {operator : Value → Value → Except OperationError Value} {value : Value}
    (computed : (do let a ← left; let b ← right; operationValue (operator a b)) = .ok value) :
    ∃ a b, operator a b = .ok value := by
  cases left with
  | error stop => cases computed
  | ok a =>
      cases right with
      | error stop => cases computed
      | ok b =>
          have operated : operationValue (operator a b) = .ok value := computed
          cases given : operator a b with
          | ok result =>
              rw [given] at operated
              cases operated
              exact ⟨a, b, given⟩
          | error error =>
              rw [given] at operated
              cases operated

/-- A tree with plain literals has a plain value. -/
theorem Expr.value_isPlain {bindings : Bindings} (plain : PlainBindings bindings) {tier : Tier}
    (expr : Expr tier) {value : Value}
    (literals : ∀ literal, Symbol.literal literal ∈ expr.symbols → literal.ty.isPlain)
    (valued : expr.value bindings = .ok value) : value.ty.isPlain := by
  induction expr generalizing value with
  | literal given =>
      cases valued
      exact literals given List.mem_cons_self
  | var name =>
      simp only [Expr.value] at valued
      split at valued
      · next known =>
          cases valued
          exact plain _ (Bindings.mem_of_get? known)
      · cases valued
  | group body ih =>
      exact ih (fun literal member => literals literal (by simp [symbols, member])) valued
  | single operand ih => exact ih literals valued
  | extend init sign operand =>
      obtain ⟨_, _, applied⟩ := operands_eq_ok valued
      exact Sign.apply_isPlain applied
  | uncompared sum ih => exact ih literals valued
  | compare left op right =>
      obtain ⟨_, _, applied⟩ := operands_eq_ok valued
      exact ComparisonOp.apply_isPlain applied

namespace Expression

/-- Every part of an expression in a program with plain literals has a plain value. -/
theorem scanner_isPlain {tokens : List Token} (literals : PlainLiterals tokens)
    {bindings : Bindings} (plain : PlainBindings bindings) {tier : Tier} {depth : Nat}
    {cursor after : Cursor} {value : Value} (ahead : cursor.rest <:+ tokens)
    (scanned : scanner bindings (inside bindings depth) tier cursor = .ok value after) :
    value.ty.isPlain := by
  obtain ⟨expr, spelling, spelled, -, valued, parts, -⟩ :=
    scanner_sound bindings depth tier _ _ _ scanned
  refine expr.value_isPlain plain ?_ valued
  intro literal member
  rw [← spelled] at member
  obtain ⟨token, inSpelling, isLiteral⟩ := List.mem_map.mp member
  have inTokens : token ∈ tokens := by
    refine ahead.subset ?_
    rw [parts]
    exact List.mem_append_left _ inSpelling
  exact literals token inTokens literal (Token.literal_of_symbol isLiteral)

end Expression

/-! ## Scans only move forward -/

/-- Whether a computation stops because of an input line. -/
def Stop.isInput : Stop → Bool
  | .failure (.input _ _) => true
  | _ => false

theorem Stop.isInput_of_isOfScan {reason : Stop} (usual : reason.isOfScan = true) :
    reason.isInput = false := by
  cases reason with
  | failure cause =>
      cases cause with
      | input => cases usual
      | _ => rfl
  | _ => rfl

theorem Cursor.closing?_suffix {opener closer : Kind} {cursor after : Cursor}
    (found : cursor.closing? opener closer = some after) : after.rest <:+ cursor.rest :=
  (passes_of_closing? found).1.suffix

namespace Scan

variable {α : Type}

/-- A scan that stays in the program, whether it succeeds or stops, and that input lines do not
stop. -/
structure Proper (scan : Scan α) : Prop where
  succeeds : ∀ {cursor a after}, scan cursor = .ok a after → after.rest <:+ cursor.rest
  stops : ∀ {cursor reason after}, scan cursor = .error reason after →
    reason.isInput = false ∧ after.rest <:+ cursor.rest

theorem GoesAhead.proper {scan : Scan α} (goes : GoesAhead scan) : Proper scan where
  succeeds succeeds := (goes.succeeds succeeds).suffix
  stops stops := by
    obtain ⟨usual, passes⟩ := goes.stops stops
    exact ⟨Stop.isInput_of_isOfScan usual, passes.suffix⟩

end Scan

theorem Expression.evaluate_proper (limit : Nat) (bindings : Bindings) :
    (evaluate limit bindings).Proper :=
  (evaluate_goesAhead limit bindings).proper

/-! ## Machines that are plain -/

/-- A machine in a program that has plain values only. -/
structure Machine.Plain (tokens : List Token) (machine : Machine) : Prop where
  ahead : machine.cursor.rest <:+ tokens
  bindings : PlainBindings machine.env.bindings
  returned : ∀ value, machine.returnValue = some value → value.ty.isPlain

theorem Machine.Plain.move {tokens : List Token} {machine : Machine}
    (plain : machine.Plain tokens) {cursor : Cursor} (ahead : cursor.rest <:+ tokens) :
    { machine with cursor }.Plain tokens :=
  ⟨ahead, plain.bindings, plain.returned⟩

namespace Exec

variable {α β : Type} {tokens : List Token} {good : α → Prop} {goodNext : β → Prop}

/-- A computation that keeps machines plain, gives something good, and is not stopped by input
lines. -/
structure Keeps (tokens : List Token) (computation : Exec α) (good : α → Prop) : Prop where
  succeeds : ∀ {machine a after}, machine.Plain tokens → computation machine = .ok a after →
    good a ∧ after.Plain tokens
  stops : ∀ {machine reason after}, machine.Plain tokens →
    computation machine = .error reason after →
    reason.isInput = false ∧ after.Plain tokens

namespace Keeps

theorem bind {first : Exec α} {next : α → Exec β} (keeps : Keeps tokens first good)
    (keepsNext : ∀ a, good a → Keeps tokens (next a) goodNext) :
    Keeps tokens (first >>= next) goodNext where
  succeeds plain succeeds := by
    obtain ⟨a, middle, begun, ended⟩ := bind_eq_ok.mp succeeds
    obtain ⟨isGood, plainMiddle⟩ := keeps.succeeds plain begun
    exact (keepsNext a isGood).succeeds plainMiddle ended
  stops plain stops := by
    rcases bind_eq_error.mp stops with failed | ⟨a, middle, begun, ended⟩
    · exact keeps.stops plain failed
    · obtain ⟨isGood, plainMiddle⟩ := keeps.succeeds plain begun
      exact (keepsNext a isGood).stops plainMiddle ended

theorem pure {a : α} (isGood : good a) : Keeps tokens (pure a : Exec α) good where
  succeeds plain succeeds := by
    cases succeeds
    exact ⟨isGood, plain⟩
  stops _ stops := by cases stops

theorem fail {cause : Failure} (notInput : (Stop.failure cause).isInput = false) :
    Keeps tokens (fail cause : Exec α) good where
  succeeds _ succeeds := by cases succeeds
  stops plain stops := by
    cases stops
    exact ⟨notInput, plain⟩

theorem modify {change : Machine → Machine}
    (keeps : ∀ machine, machine.Plain tokens → (change machine).Plain tokens) :
    Keeps tokens (modify change : Exec Unit) fun _ => True where
  succeeds plain succeeds := by
    cases succeeds
    exact ⟨trivial, keeps _ plain⟩
  stops _ stops := by cases stops

/-- A proper scan keeps machines plain. -/
theorem scan {computation : Scan α} (proper : Scan.Proper computation) :
    Keeps tokens (scan computation) fun _ => True where
  succeeds plain succeeds := by
    obtain ⟨cursor, scanned, rfl⟩ := scan_eq_ok.mp succeeds
    exact ⟨trivial, plain.move ((proper.succeeds scanned).trans plain.ahead)⟩
  stops {machine reason after} plain stops := by
    cases scanned : computation machine.cursor with
    | ok a cursor =>
        rw [scan_of_ok scanned] at stops
        cases stops
    | error reason cursor =>
        rw [scan_of_error scanned] at stops
        cases stops
        obtain ⟨notInput, ahead⟩ := proper.stops scanned
        exact ⟨notInput, plain.move (ahead.trans plain.ahead)⟩

theorem closing (opener closer : Kind) (what : String) :
    Keeps tokens (Exec.scan (Scan.closing opener closer what)) fun place =>
      place.rest <:+ tokens where
  succeeds plain succeeds := by
    obtain ⟨found, rfl⟩ := closing_eq_ok.mp succeeds
    exact ⟨(Cursor.closing?_suffix found).trans plain.ahead, plain⟩
  stops plain stops :=
    (scan (Scan.GoesAhead.closing opener closer what).proper).stops plain stops

theorem moveTo {cursor : Cursor} (ahead : cursor.rest <:+ tokens) :
    Keeps tokens (moveTo cursor) fun _ => True :=
  modify fun _ plain => plain.move ahead

theorem skipBlock : Keeps tokens skipBlock fun _ => True := by
  rw [skipBlock_eq]
  exact (closing _ _ _).bind fun _ ahead => moveTo ahead

theorem evaluate (literals : PlainLiterals tokens) :
    Keeps tokens evaluate fun value => value.ty.isPlain where
  succeeds plain succeeds := by
    obtain ⟨cursor, evaluated, rfl⟩ := evaluate_eq_ok.mp succeeds
    refine ⟨?_, ((scan (Expression.evaluate_proper _ _)).succeeds plain succeeds).2⟩
    have scanned : Expression.scanner _ (Expression.inside _ _) (.chain .logic) _ = _ :=
      evaluated
    exact Expression.scanner_isPlain literals plain.bindings plain.ahead scanned
  stops plain stops := (scan (Expression.evaluate_proper _ _)).stops plain stops

/-- A computation that depends on the machine. -/
theorem get {next : Machine → Exec α}
    (keeps : ∀ machine, machine.Plain tokens → Keeps tokens (next machine) good) :
    Keeps tokens (get >>= next) good where
  succeeds plain succeeds := (keeps _ plain).succeeds plain succeeds
  stops plain stops := (keeps _ plain).stops plain stops

theorem read : Keeps tokens read fun _ => True where
  succeeds plain succeeds := by
    cases succeeds
    exact ⟨trivial, plain.ahead, plain.bindings, plain.returned⟩
  stops _ stops := by cases stops

theorem note (event : Event) : Keeps tokens (note event) fun _ => True :=
  modify fun _ plain => ⟨plain.ahead, plain.bindings, plain.returned⟩

theorem lookup (name : Text) : Keeps tokens (lookup name) fun _ => True := by
  refine get fun machine plain => ?_
  unfold Environment.lookup
  cases machine.env.bindings.get? name with
  | some value => exact pure trivial
  | none => exact fail rfl

theorem combine {operand : Value} (plain : operand.ty.isPlain) (name : Text)
    (assignment : Assignment) :
    Keeps tokens (combine name operand assignment) fun value => value.ty.isPlain := by
  cases assignment with
  | plain => exact pure plain
  | combined op =>
      refine (lookup name).bind fun current _ => ⟨?_, ?_⟩
      · intro machine value after plain succeeds
        obtain ⟨cursor, operated, rfl⟩ := scan_eq_ok.mp succeeds
        obtain ⟨applied, rfl⟩ := Expression.operate_eq_ok operated
        exact ⟨ArithmeticOp.apply_isPlain applied, plain⟩
      · intro machine reason after plain stops
        exact (scan (Expression.operate_goesAhead _).proper).stops plain stops

theorem declare {value : Value} (plain : value.ty.isPlain) (name : Text) :
    Keeps tokens (declare name value) fun _ => True := by
  refine get fun machine holds => ?_
  unfold Environment.declare
  cases machine.env.declares name with
  | true => exact fail rfl
  | false =>
      refine modify fun _ kept => ⟨kept.ahead, ?_, kept.returned⟩
      intro entry member
      rcases List.mem_append.mp member with old | new
      · exact holds.bindings entry old
      · rw [List.mem_singleton.mp new]
        exact plain

theorem assign {value : Value} (plain : value.ty.isPlain) (name : Text) :
    Keeps tokens (assign name value) fun _ => True := by
  refine get fun machine holds => ?_
  have plainSet : PlainBindings (machine.env.bindings.set name value) := by
    intro entry member
    rcases Bindings.mem_set member with new | old
    · rw [new]
      exact plain
    · exact holds.bindings entry old
  cases assigned : machine.env.assign name value with
  | error cause =>
      refine fail ?_
      rcases Environment.assign_eq_error assigned with rfl | ⟨old, rfl⟩ <;> rfl
  | ok result =>
      obtain ⟨env, mismatch⟩ := result
      have plainEnv : PlainBindings env.bindings :=
        (Environment.assign_eq_ok assigned).bindings ▸ plainSet
      refine bind (modify fun _ kept => ⟨kept.ahead, plainEnv, kept.returned⟩) fun _ _ => ?_
      cases mismatch with
      | some mismatch => exact note _
      | none => exact pure trivial

end Keeps

end Exec

/-! ## Deeds and plans that are plain -/

/-- The deeds that a plain program does: they move within the program, and bind, return and
write plain values only. -/
def Deed.Allowed (tokens : List Token) : Deed → Prop
  | moveTo cursor => cursor.rest <:+ tokens
  | combine _ value _ | declare _ value | assign _ value | giveBack value | write value =>
      value.ty.isPlain
  | _ => True

/-- What the deeds of a plain program give: places in the program and plain values. -/
def Deed.Gives (tokens : List Token) : (deed : Deed) → deed.Result → Prop
  | closing _ _ _, cursor | place, cursor => cursor.rest <:+ tokens
  | evaluate, value | combine _ _ _, value => value.ty.isPlain
  | valueOf _, current => ∀ value : Value, current = some value → value.ty.isPlain
  | _, _ => True

/-- Every deed that is allowed keeps a machine plain. -/
theorem Deed.perform_keeps {tokens : List Token} (literals : PlainLiterals tokens) (deed : Deed)
    (allowed : deed.Allowed tokens) : Exec.Keeps tokens deed.perform (deed.Gives tokens) := by
  cases deed with
  | beginStatement | enterBlock => exact .pure trivial
  | pass => exact (Exec.Keeps.scan Scan.GoesAhead.advance.proper).bind fun _ _ => .pure trivial
  | expect kind context =>
      exact (Exec.Keeps.scan (Scan.GoesAhead.expect kind context).proper).bind
        fun _ _ => .pure trivial
  | expectName context =>
      exact (Exec.Keeps.scan (Scan.GoesAhead.expect .identifier context).proper).bind
        fun _ _ => .pure trivial
  | skipBlock => exact .skipBlock
  | closing opener closer what => exact .closing opener closer what
  | moveTo cursor => exact .moveTo allowed
  | place => exact .get fun machine plain => .pure plain.ahead
  | peek offset => exact .get fun _ _ => .pure trivial
  | evaluate => exact .evaluate literals
  | combine name operand assignment => exact .combine allowed name assignment
  | valueOf name =>
      exact .get fun machine plain => .pure fun value known =>
        plain.bindings _ (Bindings.mem_of_get? known)
  | declare name value => exact .declare allowed name
  | assign name value => exact .assign allowed name
  | read => exact .read
  | write value => exact .modify fun _ plain => ⟨plain.ahead, plain.bindings, plain.returned⟩
  | note event => exact .note event
  | giveBack value =>
      refine .modify fun _ plain => ⟨plain.ahead, plain.bindings, fun returned is => ?_⟩
      cases is
      exact allowed
  | breakOff | goOn | settle =>
      exact .modify fun _ plain => ⟨plain.ahead, plain.bindings, plain.returned⟩
  | flags => exact .get fun _ _ => .pure trivial

/-- A plan that does only what a plain program does, gives something good, and is not stopped by
input that cannot be given. -/
def Plan.Keeps {α : Type} (tokens : List Token) (plan : Plan α) (good : α → Prop) : Prop :=
  plan.Meets (·.Plain tokens) (fun moment => moment.machine.Plain tokens ∧
    moment.deed.Allowed tokens) (fun a after => good a ∧ after.Plain tokens)
    (fun reason after => (∀ name ty, reason ≠ .failure (.input name (.noInput ty))) ∧
      after.Plain tokens)

/-- Plain machines, places in the program, plain values, and no stop for input that cannot be
given. -/
def plainly (tokens : List Token) : Discipline where
  machine machine := machine.Plain tokens
  within machine := machine.Plain tokens
  place cursor := cursor.rest <:+ tokens
  value value := value.ty.isPlain
  word _ := True
  stopped reason after :=
    (∀ name ty, reason ≠ .failure (.input name (.noInput ty))) ∧ after.Plain tokens

section Plainly

variable {tokens : List Token}

theorem plainly_allowed {deed : Deed} (allows : (plainly tokens).Allows deed) :
    deed.Allowed tokens := by
  cases deed with
  | combine => exact allows.2.1
  | declare | assign => exact allows.2
  | expect | expectName | note => exact trivial
  | _ => exact allows

theorem plainly_gives {deed : Deed} {result : deed.Result} (gives : deed.Gives tokens result) :
    (plainly tokens).Gives deed result := by
  cases deed with
  | expectName => exact trivial
  | peek => exact fun _ _ => trivial
  | _ => exact gives

variable (literals : PlainLiterals tokens)

include literals

theorem plainly_stops (deed : Deed) {machine after : Machine} {reason : Stop}
    (allowed : deed.Allowed tokens) (plain : machine.Plain tokens)
    (stops : deed.perform machine = .error reason after) :
    (plainly tokens).stopped reason after := by
  obtain ⟨notInput, plainAfter⟩ := (Deed.perform_keeps literals deed allowed).stops plain stops
  refine ⟨?_, plainAfter⟩
  rintro name ty rfl
  cases notInput

theorem plainly_lawful : (plainly tokens).Lawful where
  words _ := trivial
  append _ _ := trivial
  machine_of_within plain := plain
  opens {context _ _ _} plain opened :=
    ((Deed.perform_keeps literals (.expect .marker context) trivial).succeeds plain opened).2
  unopened {context _ _ _} _ plain failed :=
    plainly_stops literals (.expect .marker context) trivial plain failed
  succeeds {deed _ _ _} allows plain performed := by
    obtain ⟨gives, plainAfter⟩ :=
      (Deed.perform_keeps literals deed (plainly_allowed allows)).succeeds plain performed
    exact ⟨plainAfter, plainly_gives gives⟩
  stops {deed _ _ _} allows plain performed :=
    plainly_stops literals deed (plainly_allowed allows) plain performed
  budget plain := ⟨nofun, plain⟩
  shape _ plain := ⟨nofun, plain⟩
  undeclared _ plain := ⟨nofun, plain⟩
  undeclaredInput _ plain := ⟨nofun, plain⟩
  condition plain := ⟨nofun, plain⟩
  entered {current value line} plain converted := by
    show value.ty.isPlain
    rw [Value.ty_ofInput converted]
    exact plain
  refused {current line name error machine} plainCurrent _ plain converted := by
    refine ⟨?_, plain⟩
    rintro name ty same
    cases same
    exact Value.ofInput_ne_noInput plainCurrent converted ty rfl

theorem Plan.statements_keeps (steps : Nat) : (statements steps).Keeps tokens fun _ => True :=
  ((plainly_lawful literals).statements steps).mono (fun _ plain => plain)
    (fun _ known => ⟨known.1, plainly_allowed known.2⟩) (fun _ _ plain => ⟨trivial, plain⟩)
    fun _ _ stopped => stopped

end Plainly

/-! ## All values of a run -/

/-- The values at hand on a machine in a program: those that are bound, the one that is
returned, the literals, the value of the expression at the cursor, and the values of all parts
of expressions in the program. -/
inductive Machine.Yields (tokens : List Token) (machine : Machine) : Value → Prop where
  | bound {name : Text} {value : Value} (member : (name, value) ∈ machine.env.bindings) :
      Yields tokens machine value
  | returned {value : Value} (is : machine.returnValue = some value) :
      Yields tokens machine value
  | literal {token : Token} {value : Value} (member : token ∈ tokens)
      (carried : token.literal = some value) :
      Yields tokens machine value
  | evaluated {value : Value} {after : Machine}
      (succeeds : Exec.evaluate machine = .ok value after) :
      Yields tokens machine value
  | part {tier : Tier} {depth : Nat} {cursor after : Cursor} {value : Value}
      (ahead : cursor.rest <:+ tokens) (scanned : Expression.scanner machine.env.bindings
        (Expression.inside machine.env.bindings depth) tier cursor = .ok value after) :
      Yields tokens machine value

theorem Machine.Plain.isPlain_of_yields {tokens : List Token} (literals : PlainLiterals tokens)
    {machine : Machine} (plain : machine.Plain tokens) {value : Value}
    (yields : machine.Yields tokens value) : value.ty.isPlain := by
  cases yields with
  | bound member => exact plain.bindings _ member
  | returned is => exact plain.returned _ is
  | literal member carried => exact literals _ member _ carried
  | evaluated succeeds => exact ((Exec.Keeps.evaluate literals).succeeds plain succeeds).1
  | part ahead scanned => exact Expression.scanner_isPlain literals plain.bindings ahead scanned

namespace Program

/-- A machine that a run comes to: at one of its moments, or at its end. -/
def Visits (steps : Nat) (strict : Bool) (tokens : List Token) (console : Console)
    (machine : Machine) : Prop :=
  (∃ deed, ⟨deed, machine⟩ ∈ history steps strict tokens console) ∨
    machine = final steps strict tokens console

variable {steps : Nat} {strict : Bool} {tokens : List Token} {console : Console}

theorem initial_plain (strict : Bool) (tokens : List Token) (console : Console) :
    (initial strict tokens console).Plain tokens :=
  ⟨List.suffix_rfl, nofun, nofun⟩

/-- Every machine that the run of a program with plain literals comes to is plain. -/
theorem Visits.plain {machine : Machine} (literals : PlainLiterals tokens)
    (visits : Visits steps strict tokens console machine) : machine.Plain tokens := by
  have start := initial_plain strict tokens console
  have keeps := Plan.statements_keeps literals steps
  rcases visits with ⟨deed, member⟩ | rfl
  · exact (keeps.moments _ start _ member).1
  · cases carried : (Plan.statements steps).run (initial strict tokens console) with
    | ok result after =>
        rw [final, Plan.final_of_ok carried]
        exact (keeps.succeeds _ start _ _ carried).2
    | error reason after =>
        rw [final, Plan.final_of_error carried]
        exact (keeps.stops _ start _ _ carried).2

theorem failure_ne_noInput (literals : PlainLiterals tokens) {report : Report} {after : Console}
    (reported : run steps strict tokens console = (.reported report, after))
    (name : Text) (ty : Ty) : report.failure ≠ some (.input name (.noInput ty)) := by
  rw [run_eq_conclude] at reported
  cases carried : (Plan.statements steps).run (initial strict tokens console) with
  | ok result machine =>
      rw [carried] at reported
      cases reported
      nofun
  | error reason machine =>
      have usual :=
        ((Plan.statements_keeps literals steps).stops _ (initial_plain _ _ _) _ _ carried).1
      rw [carried] at reported
      cases reason with
      | failure cause =>
          cases reported
          rintro same
          exact usual name ty (congrArg Stop.failure (Option.some.inj same))
      | undefinedRemainder | outOfSteps => cases reported

/-- **The values of a run are well formed.** On every machine that a run comes to, every value
at hand has a payload that its type admits. The lines that a run adds to the output are the
texts of the values that it writes, and each of these is the value of the expression that was
evaluated right before. If the program is a source text, every value at hand is an integer, a
double, a truth value or a text, and so is every value that is written; and no input of another
type is asked for. -/
theorem run_values_well_formed (steps : Nat) (strict : Bool) (console : Console) :
    (∀ tokens machine value, Visits steps strict tokens console machine →
      machine.Yields tokens value → value.ty.Admits value.toData) ∧
    (∀ tokens, (run steps strict tokens console).2.output.toList = console.output.toList ++
      ((history steps strict tokens console).filterMap Moment.written?).map Value.text) ∧
    (∀ tokens earlier value machine later,
      history steps strict tokens console = earlier ++ ⟨.write value, machine⟩ :: later →
        ∃ before asked closing context,
          earlier = before ++ [⟨.evaluate, asked⟩, ⟨.expect .groupClose context, closing⟩] ∧
          Exec.evaluate asked = .ok value closing) ∧
    (∀ source machine value, Visits steps strict (Token.ofSource source) console machine →
      machine.Yields (Token.ofSource source) value →
      value.ty ∈ [.int, .float, .boolean, .string]) ∧
    (∀ source machine value,
      ⟨.write value, machine⟩ ∈ history steps strict (Token.ofSource source) console →
      value.ty ∈ [.int, .float, .boolean, .string]) ∧
    (∀ source report after name ty,
      run steps strict (Token.ofSource source) console = (.reported report, after) →
        report.failure ≠ some (.input name (.noInput ty))) := by
  have listed : ∀ ty : Ty, ty.isPlain → ty ∈ [Ty.int, .float, .boolean, .string] := by
    intro ty plain
    cases ty with
    | int | float | boolean | string => decide
    | char | void | unknown => cases plain
  refine ⟨fun _ _ value _ _ => value.ty_admits,
    fun tokens => run_output_eq steps strict tokens console, ?_, ?_, ?_, ?_⟩
  · intro tokens earlier value machine later parts
    exact (history_printed steps strict tokens console).split parts
  · intro source machine value visits yields
    have literals := Token.ofSource_plainLiterals source
    exact listed _ ((visits.plain literals).isPlain_of_yields literals yields)
  · intro source machine value member
    have keeps := Plan.statements_keeps (Token.ofSource_plainLiterals source) steps
    have plain : value.ty.isPlain := (keeps.moments _ (initial_plain _ _ _) _ member).2
    exact listed _ plain
  · intro source report after name ty reported
    exact failure_ne_noInput (Token.ofSource_plainLiterals source) reported name ty

/-- A source text that declares a number, prints it and asks for another one. -/
def askingSource : String :=
  "^_^ keloğlan x _ 1 ^_^\n^_^ tospik ) \"x: \" ._. x ( ^_^\n^_^ marsupilami ) x ( ^_^"

/-- On the line `a` the run of the source text ends at its input, with the number still bound,
after it has written the value of the one expression that it prints. -/
theorem run_values_well_formed_asking :
    (("x", .int 1) : Text × Value) ∈
      (final 5 false (Token.ofSource askingSource) { feed := ⟨["a"], 0⟩ }).env.bindings ∧
    (Value.int 1).ty.Admits (Value.int 1).toData ∧
    (Value.int 1).ty ∈ [Ty.int, .float, .boolean, .string] ∧
    (∃ earlier machine later,
      history 5 false (Token.ofSource askingSource) { feed := ⟨["a"], 0⟩ } =
        earlier ++ ⟨.write (.string "x: 1"), machine⟩ :: later ∧
      (∃ before asked closing context,
        earlier = before ++ [⟨.evaluate, asked⟩, ⟨.expect .groupClose context, closing⟩] ∧
        Exec.evaluate asked = .ok (.string "x: 1") closing) ∧
      (Value.string "x: 1").ty ∈ [Ty.int, .float, .boolean, .string]) ∧
    (["x: 1"] : List Text) = [] ++
      ((history 5 false (Token.ofSource askingSource) { feed := ⟨["a"], 0⟩ }).filterMap
        Moment.written?).map Value.text ∧
    (run 5 false (Token.ofSource askingSource) { feed := ⟨["a"], 0⟩ }).1 =
      .reported ⟨some (.input "x" (.notInteger "a")), none, [("x", .int 1)], []⟩ ∧
    some (Failure.input "x" (.notInteger "a")) ≠ some (.input "x" (.noInput .int)) := by
  obtain ⟨admits, output, printed, plain, plainWritten, inputs⟩ :=
    run_values_well_formed 5 false { feed := ⟨["a"], 0⟩ }
  have bound :
      (("x", .int 1) : Text × Value) ∈ (final 5 false (Token.ofSource askingSource)
        { feed := ⟨["a"], 0⟩ }).env.bindings := by
    decide +kernel
  have ended : (run 5 false (Token.ofSource askingSource) { feed := ⟨["a"], 0⟩ }).1 =
      .reported ⟨some (.input "x" (.notInteger "a")), none, [("x", .int 1)], []⟩ := by
    decide +kernel
  have lines :
      (run 5 false (Token.ofSource askingSource) { feed := ⟨["a"], 0⟩ }).2.output.toList =
      (["x: 1"] : List Text) := by
    decide +kernel
  have written : ∃ moment ∈ history 5 false (Token.ofSource askingSource)
      { feed := ⟨["a"], 0⟩ }, moment.deed = .write (.string "x: 1") := by
    decide +kernel
  obtain ⟨⟨deed, machine⟩, member, rfl⟩ := written
  obtain ⟨earlier, later, parts⟩ := List.append_of_mem member
  have yields : Machine.Yields (Token.ofSource askingSource)
      (final 5 false (Token.ofSource askingSource) { feed := ⟨["a"], 0⟩ }) (.int 1) :=
    .bound bound
  refine ⟨bound, ?_, ?_, ⟨earlier, machine, later, parts, ?_, ?_⟩, ?_, ended, ?_⟩
  · exact admits (Token.ofSource askingSource) _ (.int 1) (.inr rfl) yields
  · exact plain askingSource _ (.int 1) (.inr rfl) yields
  · exact printed _ _ _ _ _ parts
  · exact plainWritten askingSource _ _ member
  · exact lines.symm.trans (output (Token.ofSource askingSource))
  · have reported := Prod.eta (run 5 false (Token.ofSource askingSource) { feed := ⟨["a"], 0⟩ })
    rw [ended] at reported
    exact inputs askingSource _ _ "x" .int reported.symm

end Program

end ToonScript
