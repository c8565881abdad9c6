import ToonScript.Proofs.Concatenation
import ToonScript.Proofs.Plan
import ToonScript.Proofs.Route
import ToonScript.Proofs.Tree.Printing

/-!
# Skipped code is opaque

A block that a run never enters is passed over by counting its brackets, and nothing else is
looked at. So what stands in it may be replaced by anything that is balanced: a successful run
stays as it is.

A `Splice` is a pair of programs that differ only in what stands in one block. The two runs are
at corresponding places when the block is still ahead of both, or behind both (`Splice.Near`),
or when both stand right behind its opener (`Splice.Wide`). From there, each run may only pass
over the block or enter it, and entering is ruled out by assumption. All other scans are
innocent: an expression holds no bracket of a block, and the scan for the end of the condition
of a loop, which counts other brackets, ends behind an expression if the run succeeds.

`Splice.Carries` says this of a pair of plans: whatever the first does successfully without
entering the block, the second does as well, from corresponding places to corresponding places.
-/

set_option autoImplicit false

namespace ToonScript

open Token (Kind)

/-- Two programs that differ in what stands between the opener and the closer of one block:
`skipped` in the first and `other` in the second. -/
structure Splice where
  opener : Token
  skipped : List Token
  other : List Token
  closer : Token
  back : List Token
  opens : opener.kind = .blockOpen
  closes : closer.kind = .blockClose
  balanced : Balanced .blockOpen .blockClose skipped
  balancedOther : Balanced .blockOpen .blockClose other

namespace Splice

variable (splice : Splice)

/-- The first program from behind the opener on. -/
def inside : List Token := splice.skipped ++ splice.closer :: splice.back

/-- The second program from behind the opener on. -/
def insideOther : List Token := splice.other ++ splice.closer :: splice.back

/-! ## Corresponding places -/

/-- The tokens ahead in the two programs, where the block is ahead of both or behind both. -/
inductive Near : List Token → List Token → Prop where
  | ahead (front : List Token) :
      Near (front ++ splice.opener :: splice.inside)
        (front ++ splice.opener :: splice.insideOther)
  | behind (rest : List Token) : Near rest rest

/-- The tokens ahead in the two programs, where both may also stand right behind the opener of
the block. -/
inductive Wide : List Token → List Token → Prop where
  | near {rest rest' : List Token} (near : splice.Near rest rest') : Wide rest rest'
  | opened : Wide splice.inside splice.insideOther

/-- Near places where the next tokens, up to a number of them, are no openers of blocks. -/
structure Ready (count : Nat) (rest rest' : List Token) : Prop where
  near : splice.Near rest rest'
  next : ∀ token ∈ rest.take count, token.kind ≠ .blockOpen

variable {splice} {rest rest' : List Token} {token : Token} {count : Nat}

/-- Passing a token leads to near places, or right behind the opener of the block. -/
theorem Near.cons (near : splice.Near (token :: rest) rest') :
    ∃ behind, rest' = token :: behind ∧ splice.Wide rest behind ∧
      (token.kind ≠ .blockOpen → splice.Near rest behind) := by
  generalize shape : token :: rest = tokens at near
  cases near with
  | ahead front =>
      cases front with
      | nil =>
          obtain ⟨rfl, rfl⟩ := List.cons.inj shape
          exact ⟨_, rfl, .opened, fun other => absurd splice.opens other⟩
      | cons first front =>
          obtain ⟨rfl, rfl⟩ := List.cons.inj shape
          exact ⟨_, rfl, .near (.ahead front), fun _ => .ahead front⟩
  | behind =>
      subst shape
      exact ⟨rest, rfl, .near (.behind rest), fun _ => .behind rest⟩

theorem Near.nil (near : splice.Near [] rest') : rest' = [] := by
  generalize shape : [] = tokens at near
  cases near with
  | ahead front => cases front <;> cases shape
  | behind => rfl

/-- Near places have the same next token. -/
theorem Near.next_eq (near : splice.Near rest rest') : rest'[0]? = rest[0]? := by
  cases rest with
  | nil => rw [near.nil]
  | cons token rest =>
      obtain ⟨behind, rfl, -⟩ := near.cons
      rfl

/-- A next token that is no opener of a block makes a near place ready. -/
theorem Near.ready_one {next : Option Token} (near : splice.Near rest rest')
    (here : rest[0]? = next) (other : ∀ token, next = some token → token.kind ≠ .blockOpen) :
    splice.Ready 1 rest rest' := by
  refine ⟨near, fun token member => other token ?_⟩
  cases rest with
  | nil => cases member
  | cons first rest =>
      rw [List.take_succ_cons, List.take_zero, List.mem_singleton] at member
      rw [← here, member, List.getElem?_cons_zero]

theorem Ready.cons (ready : splice.Ready (count + 1) (token :: rest) rest') :
    ∃ behind, rest' = token :: behind ∧ splice.Ready count rest behind := by
  have other : token.kind ≠ .blockOpen := ready.next token (by simp)
  obtain ⟨behind, rfl, -, near⟩ := ready.near.cons
  refine ⟨behind, rfl, near other, fun later member => ready.next later ?_⟩
  rw [List.take_succ_cons]
  exact List.mem_cons_of_mem _ member

/-- The tokens that are no openers of blocks are the same in both programs, and so is the next
one. -/
theorem Ready.getElem?_eq (ready : splice.Ready count rest rest') :
    rest'[count]? = rest[count]? := by
  induction count generalizing rest rest' with
  | zero => exact ready.near.next_eq
  | succ count ih =>
      cases rest with
      | nil => rw [ready.near.nil]
      | cons token rest =>
          obtain ⟨behind, rfl, readyBehind⟩ := ready.cons
          exact ih readyBehind

/-- Finding the end of a block leads from near places to near places. -/
theorem Near.closingFrom {after : Cursor} {balance : Nat} (positive : 0 < balance)
    (near : splice.Near rest rest')
    (found : Cursor.closingFrom .blockOpen .blockClose balance rest = some after) :
    ∃ after', Cursor.closingFrom .blockOpen .blockClose balance rest' = some after' ∧
      splice.Near after.rest after'.rest := by
  cases near with
  | behind => exact ⟨after, found, .behind after.rest⟩
  | ahead front =>
      induction front generalizing balance with
      | nil =>
          -- The block is counted in and out again, so that the count behind it is the one
          -- before it.
          have passed : ∀ inner, Balanced .blockOpen .blockClose inner →
              Cursor.closingFrom .blockOpen .blockClose balance
                  (splice.opener :: (inner ++ splice.closer :: splice.back)) =
                Cursor.closingFrom .blockOpen .blockClose balance splice.back := by
            intro inner balanced
            have going : balance ≠ 0 := Nat.ne_of_gt positive
            rw [Cursor.closingFrom]
            simp only [splice.opens, ↓reduceIte, Nat.add_eq_zero_iff,
              Nat.one_ne_zero, and_false]
            rw [Cursor.closingFrom_append_of_balanced _ (Nat.succ_pos balance) balanced,
              Cursor.closingFrom]
            simp only [splice.closes, reduceCtorEq, ↓reduceIte, Nat.succ_sub_one, going]
          have behind := passed splice.skipped splice.balanced
          rw [List.nil_append, inside, behind] at found
          exact ⟨after, (passed splice.other splice.balancedOther).trans found,
            .behind after.rest⟩
      | cons token front ih =>
          rw [List.cons_append, Cursor.closingFrom] at found
          rw [List.cons_append, Cursor.closingFrom]
          generalize (if token.kind = .blockOpen then balance + 1
            else if token.kind = .blockClose then balance - 1 else balance) = count at found ⊢
          by_cases zero : count = 0
          · simp only [zero, ↓reduceIte, Option.some.injEq] at found ⊢
            subst found
            exact ⟨_, rfl, .ahead front⟩
          · simp only [zero, ↓reduceIte] at found ⊢
            exact ih (Nat.pos_of_ne_zero zero) found

theorem Wide.closing {cursor cursor' after : Cursor}
    (wide : splice.Wide cursor.rest cursor'.rest)
    (found : cursor.closing? .blockOpen .blockClose = some after) :
    ∃ after', cursor'.closing? .blockOpen .blockClose = some after' ∧
      splice.Near after.rest after'.rest := by
  rw [Cursor.closing?] at found ⊢
  generalize cursor.rest = rest, cursor'.rest = rest' at wide found ⊢
  cases wide with
  | near near => exact near.closingFrom Nat.one_pos found
  | opened =>
      -- Right behind the opener, both scans end at the closer of the block itself.
      have ended : ∀ inner, Balanced .blockOpen .blockClose inner →
          Cursor.closingFrom .blockOpen .blockClose 1 (inner ++ splice.closer :: splice.back) =
            some ⟨some splice.closer, splice.back⟩ := by
        intro inner balanced
        rw [Cursor.closingFrom_append_of_balanced _ Nat.one_pos balanced, Cursor.closingFrom]
        simp only [splice.closes, reduceCtorEq, ↓reduceIte, Nat.sub_self]
      rw [inside, ended _ splice.balanced] at found
      cases found
      exact ⟨_, ended _ splice.balancedOther, .behind splice.back⟩

/-- An expression is read within what both programs share. -/
theorem Near.evaluate {limit : Nat} {bindings : Bindings} {value : Value}
    {cursor cursor' after : Cursor} (near : splice.Near cursor.rest cursor'.rest)
    (evaluated : Expression.evaluate limit bindings cursor = .ok value after) :
    ∃ after', Expression.evaluate limit bindings cursor' = .ok value after' ∧
      splice.Near after.rest after'.rest := by
  obtain ⟨formula, tokens, spelled, shallow, valued, read, -, ends⟩ :=
    Expression.evaluate_eq_ok_iff.mp evaluated
  have passes : ∀ (tokens : List Token) {rest' : List Token},
      (∀ token ∈ tokens, token.kind ≠ .blockOpen) → splice.Near (tokens ++ after.rest) rest' →
      ∃ behind, rest' = tokens ++ behind ∧ splice.Near after.rest behind := by
    intro tokens
    induction tokens with
    | nil => exact fun _ near => ⟨_, rfl, near⟩
    | cons token tokens ih =>
        intro rest' foreign near
        obtain ⟨behind, rfl, -, nearBehind⟩ := near.cons
        obtain ⟨last, rfl, nearLast⟩ :=
          ih (fun later member => foreign later (List.mem_cons_of_mem _ member))
            (nearBehind (foreign token List.mem_cons_self))
        exact ⟨last, rfl, nearLast⟩
  rw [read] at near
  obtain ⟨behind, parts, nearBehind⟩ :=
    passes tokens (fun token member => (Expr.neutral_of_spelled spelled token member).1) near
  refine ⟨⟨Cursor.past cursor'.last tokens, behind⟩, ?_, nearBehind⟩
  refine Expression.evaluate_eq_ok_iff.mpr ⟨formula, tokens, spelled, shallow, valued,
    parts, rfl, ?_⟩
  intro token next
  rw [List.head?_eq_getElem?, nearBehind.next_eq, ← List.head?_eq_getElem?] at next
  exact ends token next

/-! ## Machines at corresponding places -/

end Splice

/-- The machine at another place and with another trace. -/
def Machine.retrace (machine : Machine) (cursor : Cursor) (trace : Array Event) : Machine :=
  { machine with cursor, console := { machine.console with trace } }

/-- An event changes nothing but the trace. -/
theorem Console.note_eq (console : Console) (event : Event) :
    console.note event = { console with trace := (console.note event).trace } := by
  unfold note
  split <;> rfl

theorem Console.note_retrace (console : Console) (trace : Array Event) (event : Event) :
    ∃ trace', ({ console with trace } : Console).note event =
      { console.note event with trace := trace' } := by
  refine ⟨(({ console with trace } : Console).note event).trace, ?_⟩
  rw [Console.note_eq, Console.note_eq console]

/-- A deed that does the same at every place and with every trace, and does not move. -/
def Deed.Blind (deed : Deed) : Prop :=
  ∀ (machine after : Machine) (result : deed.Result) (cursor : Cursor) (trace : Array Event),
    deed.perform machine = .ok result after →
      after.cursor = machine.cursor ∧
        ∃ trace', deed.perform (machine.retrace cursor trace) =
          .ok result (after.retrace cursor trace')

namespace Deed.Blind

theorem note (event : Event) : (note event).Blind := by
  intro machine after result cursor trace performed
  cases performed
  obtain ⟨trace', noted⟩ := machine.console.note_retrace trace event
  refine ⟨rfl, trace', ?_⟩
  have changed : (Deed.note event).perform (machine.retrace cursor trace) =
      .ok () { machine with
        cursor, console := ({ machine.console with trace } : Console).note event } := rfl
  rw [changed, noted]
  rfl

theorem declare (name : Text) (value : Value) : (declare name value).Blind := by
  intro machine after result cursor trace performed
  have performed' : Exec.declare name value machine = .ok result after := performed
  show _ ∧
    ∃ trace', Exec.declare name value (machine.retrace cursor trace) =
      .ok result (after.retrace cursor trace')
  have sameEnv : (machine.retrace cursor trace).env = machine.env := rfl
  simp only [Exec.declare, get_bind, sameEnv] at performed' ⊢
  cases declared : machine.env.declare name value with
  | ok env =>
      rw [declared] at performed'
      cases performed'
      exact ⟨rfl, trace, rfl⟩
  | error cause =>
      rw [declared] at performed'
      cases performed'

theorem assign (name : Text) (value : Value) : (assign name value).Blind := by
  intro machine after result cursor trace performed
  have performed' : Exec.assign name value machine = .ok result after := performed
  show _ ∧
    ∃ trace', Exec.assign name value (machine.retrace cursor trace) =
      .ok result (after.retrace cursor trace')
  cases assigned : machine.env.assign name value with
  | error cause =>
      rw [Exec.assign_of_error assigned] at performed'
      cases performed'
  | ok outcome =>
      obtain ⟨env, mismatch⟩ := outcome
      have assigned' : (machine.retrace cursor trace).env.assign name value =
          .ok (env, mismatch) := assigned
      cases mismatch with
      | none =>
          rw [Exec.assign_of_agreeing assigned] at performed'
          cases performed'
          exact ⟨rfl, trace, Exec.assign_of_agreeing assigned'⟩
      | some mismatch =>
          rw [Exec.assign_of_mismatch assigned] at performed'
          cases performed'
          obtain ⟨trace', noted⟩ := machine.console.note_retrace trace (.mismatched mismatch)
          refine ⟨rfl, trace', ?_⟩
          have console : (machine.retrace cursor trace).console.note (.mismatched mismatch) =
              { machine.console.note (.mismatched mismatch) with trace := trace' } := noted
          rw [Exec.assign_of_mismatch assigned', console]
          rfl

theorem combine (name : Text) (operand : Value) (assignment : Exec.Assignment) :
    (combine name operand assignment).Blind := by
  intro machine after result cursor trace performed
  have performed' : Exec.combine name operand assignment machine = .ok result after := performed
  show _ ∧ ∃ trace', Exec.combine name operand assignment (machine.retrace cursor trace) =
    .ok result (after.retrace cursor trace')
  cases assignment with
  | plain =>
      cases performed'
      exact ⟨rfl, trace, rfl⟩
  | combined op =>
      have sameEnv : (machine.retrace cursor trace).env = machine.env := rfl
      simp only [Exec.combine, Exec.lookup, get_bind, bind_assoc, sameEnv] at performed' ⊢
      cases looked : machine.env.lookup name with
      | error cause =>
          rw [looked] at performed'
          cases performed'
      | ok current =>
          rw [looked] at performed'
          obtain ⟨place, operated, rfl⟩ := Exec.scan_eq_ok.mp performed'
          obtain ⟨applied, rfl⟩ := Expression.operate_eq_ok operated
          refine ⟨rfl, trace, Exec.scan_eq_ok.mpr ⟨cursor, ?_, rfl⟩⟩
          rw [applied]
          rfl

theorem read : read.Blind := by
  intro machine after result cursor trace performed
  cases performed
  exact ⟨rfl, trace, rfl⟩

theorem write (value : Value) : (write value).Blind := by
  intro machine after result cursor trace performed
  cases performed
  exact ⟨rfl, trace, rfl⟩

theorem valueOf (name : Text) : (valueOf name).Blind := by
  intro machine after result cursor trace performed
  cases performed
  exact ⟨rfl, trace, rfl⟩

/-- The deeds that set and tell flags, and the one that tells where a statement begins. -/
theorem ofFlags {deed : Deed}
    (among : deed ∈ [.beginStatement, .breakOff, .goOn, .settle, .flags]) : deed.Blind := by
  intro machine after result cursor trace performed
  simp only [List.mem_cons, List.not_mem_nil, or_false] at among
  rcases among with rfl | rfl | rfl | rfl | rfl
  all_goals
    cases performed
    exact ⟨rfl, trace, rfl⟩

theorem giveBack (value : Value) : (giveBack value).Blind := by
  intro machine after result cursor trace performed
  cases performed
  exact ⟨rfl, trace, rfl⟩

end Deed.Blind

namespace Splice

/-! ## Plans side by side -/

/-- The machines of the two runs: the tokens ahead correspond, the traces may differ, all else
is the same. -/
inductive Alike (place : List Token → List Token → Prop) (machine : Machine) :
    Machine → Prop where
  | intro {cursor : Cursor} {trace : Array Event}
      (corresponding : place machine.cursor.rest cursor.rest) :
      Alike place machine (machine.retrace cursor trace)

/-- No block is entered right behind the opener. -/
def Avoids (splice : Splice) (history : List Moment) : Prop :=
  ∀ moment ∈ history, moment.deed = .enterBlock →
    moment.machine.cursor.rest.length ≠ splice.inside.length

variable {α β : Type} {splice : Splice}

/-- What the first plan does successfully on one machine without entering the block, the second
does on the other machine as well, and both come to corresponding places. -/
def CarriesFrom (splice : Splice) (machine machine' : Machine) (plan plan' : Plan α)
    (placeAfter : List Token → List Token → Prop) : Prop :=
  ∀ after result, plan.run machine = .ok result after → splice.Avoids (plan.history machine) →
    ∃ after', plan'.run machine' = .ok result after' ∧ Alike placeAfter after after'

/-- From all corresponding places, what the first plan does successfully without entering the
block, the second does as well. -/
def Carries (splice : Splice) (place : List Token → List Token → Prop) (plan plan' : Plan α)
    (placeAfter : List Token → List Token → Prop) : Prop :=
  ∀ machine machine', Alike place machine machine' →
    splice.CarriesFrom machine machine' plan plan' placeAfter

/-- The second part of a plan, once the first part is done. -/
theorem CarriesFrom.bind {machine machine' middle middle' : Machine} {plan plan' : Plan α}
    {given given' : α} {next next' : α → Plan β} {placeAfter : List Token → List Token → Prop}
    (begun : plan.run machine = .ok given middle)
    (begun' : plan'.run machine' = .ok given' middle')
    (carries : splice.CarriesFrom middle middle' (next given) (next' given') placeAfter) :
    splice.CarriesFrom machine machine' (plan >>= next) (plan' >>= next') placeAfter := by
  intro after result carried avoids
  rw [Plan.run_bind, bind_of_ok begun] at carried
  rw [Plan.history_bind_of_ok begun] at avoids
  rw [Plan.run_bind, bind_of_ok begun']
  exact carries after result carried fun moment member =>
    avoids moment (List.mem_append_right _ member)

namespace Carries

variable {place placeMiddle placeAfter : List Token → List Token → Prop}

theorem bind {plan plan' : Plan α} {next next' : α → Plan β}
    (carries : splice.Carries place plan plan' placeMiddle)
    (carriesNext : ∀ result,
      splice.Carries placeMiddle (next result) (next' result) placeAfter) :
    splice.Carries place (plan >>= next) (plan' >>= next') placeAfter := by
  intro machine machine' alike after result carried avoids
  have opened := carried
  rw [Plan.run_bind] at opened
  obtain ⟨given, middle, begun, -⟩ := bind_eq_ok.mp opened
  have early : splice.Avoids (plan.history machine) := by
    intro moment member
    refine avoids moment ?_
    rw [Plan.history_bind_of_ok begun]
    exact List.mem_append_left _ member
  obtain ⟨middle', begun', alikeMiddle⟩ :=
    carries machine machine' alike middle given begun early
  exact (carriesNext given middle middle' alikeMiddle).bind begun begun' after result
    carried avoids

/-- Corresponding places may be described more loosely before, and more strictly after. -/
theorem weaken {plan plan' : Plan α} {placeBefore placeLast : List Token → List Token → Prop}
    (carries : splice.Carries place plan plan' placeAfter)
    (before : ∀ {rest rest'}, placeBefore rest rest' → place rest rest')
    (last : ∀ {rest rest'}, placeAfter rest rest' → placeLast rest rest') :
    splice.Carries placeBefore plan plan' placeLast := by
  rintro machine _ ⟨corresponding⟩ after result carried avoids
  obtain ⟨_, carried', ⟨correspondingAfter⟩⟩ :=
    carries _ _ (.intro (before corresponding)) _ _ carried avoids
  exact ⟨_, carried', .intro (last correspondingAfter)⟩

theorem pure (result : α) : splice.Carries place (pure result) (pure result) place := by
  intro machine machine' alike after given carried avoids
  cases carried
  exact ⟨machine', rfl, alike⟩

theorem stop (reason : Stop) (plan' : Plan α) :
    splice.Carries place (.stop reason) plan' placeAfter := by
  intro machine machine' alike after given carried avoids
  cases carried

/-- A deed that moves both runs from corresponding places to corresponding places. -/
theorem ofDeed {deed : Deed}
    (moves : ∀ {machine after : Machine} {result : deed.Result} (cursor : Cursor)
      (trace : Array Event), place machine.cursor.rest cursor.rest →
      deed.perform machine = .ok result after →
      splice.Avoids [⟨deed, machine⟩] →
        ∃ cursor' trace', deed.perform (machine.retrace cursor trace) = .ok result
        (after.retrace cursor' trace') ∧
          placeAfter after.cursor.rest cursor'.rest) :
    splice.Carries place (Plan.perform deed) (Plan.perform deed) placeAfter := by
  rintro machine _ ⟨corresponding⟩ after result carried avoids
  rw [Plan.run_perform] at carried
  rw [Plan.perform, Plan.history_act_of_ok carried] at avoids
  obtain ⟨cursor', trace', performed, correspondingAfter⟩ :=
    moves _ _ corresponding carried avoids
  rw [Plan.run_perform]
  exact ⟨_, performed, .intro correspondingAfter⟩

theorem blind {deed : Deed} (blind : deed.Blind) :
    splice.Carries place (Plan.perform deed) (Plan.perform deed) place := by
  refine ofDeed fun cursor trace corresponding performed _ => ?_
  obtain ⟨unmoved, trace', performed'⟩ := blind _ _ _ cursor trace performed
  refine ⟨cursor, trace', performed', ?_⟩
  rw [unmoved]
  exact corresponding

/-! Deeds that move. -/

theorem pass (count : Nat) :
    splice.Carries (splice.Ready (count + 1)) (Plan.perform .pass) (Plan.perform .pass)
      (splice.Ready count) := by
  refine ofDeed fun cursor trace ready performed _ => ?_
  obtain ⟨token, rest, parts, rfl⟩ := Exec.pass_eq_ok.mp performed
  rw [parts] at ready
  obtain ⟨behind, parts', readyBehind⟩ := ready.cons
  exact ⟨⟨some token, behind⟩, trace, Exec.pass_eq_ok.mpr ⟨token, behind, parts', rfl⟩,
    readyBehind⟩

theorem expect {kind : Kind} (other : kind ≠ .blockOpen) (context : Text) :
    splice.Carries splice.Near (Plan.perform (.expect kind context))
      (Plan.perform (.expect kind context)) splice.Near := by
  refine ofDeed fun cursor trace near performed _ => ?_
  obtain ⟨token, rest, parts, wanted, rfl⟩ := Exec.expect_eq_ok.mp performed
  rw [parts] at near
  obtain ⟨behind, parts', -, nearBehind⟩ := near.cons
  exact ⟨⟨some token, behind⟩, trace,
    Exec.expect_eq_ok.mpr ⟨token, behind, parts', wanted, rfl⟩, nearBehind (wanted ▸ other)⟩

/-- Passing an opener of a block may lead right behind the opener of the block in question. -/
theorem expectBlock (context : Text) :
    splice.Carries splice.Near (Plan.perform (.expect .blockOpen context))
      (Plan.perform (.expect .blockOpen context)) splice.Wide := by
  refine ofDeed fun cursor trace near performed _ => ?_
  obtain ⟨token, rest, parts, wanted, rfl⟩ := Exec.expect_eq_ok.mp performed
  rw [parts] at near
  obtain ⟨behind, parts', wide, -⟩ := near.cons
  exact ⟨⟨some token, behind⟩, trace,
    Exec.expect_eq_ok.mpr ⟨token, behind, parts', wanted, rfl⟩, wide⟩

theorem expectName (context : Text) :
    splice.Carries splice.Near (Plan.perform (.expectName context))
      (Plan.perform (.expectName context)) splice.Near := by
  refine ofDeed fun cursor trace near performed _ => ?_
  obtain ⟨token, rest, parts, wanted, named, rfl⟩ := Exec.expectName_eq_ok.mp performed
  rw [parts] at near
  obtain ⟨behind, parts', -, nearBehind⟩ := near.cons
  exact ⟨⟨some token, behind⟩, trace,
    Exec.expectName_eq_ok.mpr ⟨token, behind, parts', wanted, named, rfl⟩,
    nearBehind (wanted ▸ by decide)⟩

theorem evaluate :
    splice.Carries splice.Near (Plan.perform .evaluate) (Plan.perform .evaluate)
      splice.Near := by
  refine ofDeed fun cursor trace near performed _ => ?_
  obtain ⟨reached, evaluated, rfl⟩ := Exec.evaluate_eq_ok.mp performed
  obtain ⟨reached', evaluated', nearReached⟩ := near.evaluate evaluated
  exact ⟨reached', trace, Exec.evaluate_eq_ok.mpr ⟨reached', evaluated', rfl⟩, nearReached⟩

/-- Passing over a block leads past the block in question. -/
theorem skipBlock :
    splice.Carries splice.Wide (Plan.perform .skipBlock) (Plan.perform .skipBlock)
      splice.Near := by
  refine ofDeed fun cursor trace wide performed _ => ?_
  obtain ⟨reached, found, rfl⟩ := Exec.skipBlock_eq_ok.mp performed
  obtain ⟨reached', found', nearReached⟩ := wide.closing found
  exact ⟨reached', trace, Exec.skipBlock_eq_ok.mpr ⟨reached', found', rfl⟩, nearReached⟩

/-- The block that is entered is another one. -/
theorem enterBlock :
    splice.Carries splice.Wide (Plan.perform .enterBlock) (Plan.perform .enterBlock)
      splice.Near := by
  refine ofDeed fun {machine after result} cursor trace wide performed avoids => ?_
  have elsewhere := avoids ⟨.enterBlock, machine⟩ List.mem_cons_self rfl
  cases performed
  refine ⟨cursor, trace, rfl, ?_⟩
  generalize machine.cursor.rest = rest, cursor.rest = rest' at wide elsewhere
  cases wide with
  | near near => exact near
  | opened => exact absurd rfl elsewhere

theorem moveTo {cursor cursor' : Cursor} (corresponding : placeAfter cursor.rest cursor'.rest) :
    splice.Carries place (Plan.perform (.moveTo cursor)) (Plan.perform (.moveTo cursor'))
      placeAfter := by
  rintro machine _ ⟨-⟩ after result carried -
  rw [Plan.run_perform] at carried ⊢
  cases carried
  exact ⟨_, rfl, .intro corresponding⟩

/-! Deeds that tell something of the place. -/

theorem peek (offset : Nat) {next next' : Option Token → Plan α}
    (same : ∀ {rest rest'}, place rest rest' → rest'[offset]? = rest[offset]?)
    (carries : ∀ token,
      splice.Carries (fun rest rest' => place rest rest' ∧ rest[offset]? = token) (next token)
      (next' token) placeAfter) :
    splice.Carries place (Plan.perform (.peek offset) >>= next)
      (Plan.perform (.peek offset) >>= next')
      placeAfter := by
  rintro machine _ ⟨corresponding⟩
  rename_i cursor trace
  have told : ∀ machine, (Plan.perform (.peek offset)).run machine =
      .ok (machine.cursor.peek offset) machine :=
    fun _ => rfl
  have sameToken : (machine.retrace cursor trace).cursor.peek offset =
      machine.cursor.peek offset :=
    same corresponding
  refine .bind (told machine) (told _) ?_
  rw [sameToken]
  exact carries _ _ _ (.intro ⟨corresponding, rfl⟩)

theorem here {next next' : Cursor → Plan α}
    (carries : ∀ cursor cursor' : Cursor, place cursor.rest cursor'.rest →
      splice.Carries place (next cursor) (next' cursor') placeAfter) :
    splice.Carries place (Plan.perform .place >>= next) (Plan.perform .place >>= next')
      placeAfter := by
  rintro machine _ ⟨corresponding⟩
  have told : ∀ machine, (Plan.perform .place).run machine = .ok machine.cursor machine :=
    fun _ => rfl
  exact .bind (told machine) (told _) (carries _ _ corresponding _ _ (.intro corresponding))

theorem run_closing_eq_ok {opener closer : Kind} {what : String} {machine after : Machine}
    {closed : Cursor} :
    (Plan.perform (.closing opener closer what)).run machine = .ok closed after ↔
      machine.cursor.closing? opener closer = some closed ∧ machine = after := by
  rw [Plan.run_perform]
  exact Exec.closing_eq_ok

/-- The end of a block is found past the block in question. -/
theorem closingBlock {what : String} {next next' : Cursor → Plan α}
    (carries : ∀ cursor cursor' : Cursor, splice.Near cursor.rest cursor'.rest →
      splice.Carries splice.Wide (next cursor) (next' cursor') placeAfter) :
    splice.Carries splice.Wide (Plan.perform (.closing .blockOpen .blockClose what) >>= next)
      (Plan.perform (.closing .blockOpen .blockClose what) >>= next') placeAfter := by
  rintro machine _ ⟨wide⟩ after result carried avoids
  rename_i cursor trace
  have opened := carried
  rw [Plan.run_bind] at opened
  obtain ⟨closed, _, located, -⟩ := bind_eq_ok.mp opened
  obtain ⟨found, rfl⟩ := run_closing_eq_ok.mp located
  obtain ⟨closed', found', near⟩ := wide.closing found
  exact (carries closed closed' near _ _ (.intro wide)).bind located
    (run_closing_eq_ok.mpr ⟨found', rfl⟩) after result carried avoids

/-- The scan for the end of a condition counts other brackets than those of blocks and might run
into the block. But if what follows evaluates an expression at the place and finds it closed,
then the scan has passed this expression only. -/
theorem condition {what : String} {next next' : Cursor → Cursor → Plan α}
    (looks : ∀ condition behind machine after result, (next condition behind).run machine =
      .ok result after →
      ∃ middle closed, Route.expression condition middle ∧ Route.kind .groupClose middle closed)
    (carries : ∀ condition condition' behind behind' : Cursor,
      splice.Near condition.rest condition'.rest →
      splice.Near behind.rest behind'.rest →
      splice.Carries splice.Near (next condition behind)
      (next' condition' behind') placeAfter) :
    splice.Carries splice.Near
      (Plan.perform .place >>= fun condition =>
        Plan.perform (.closing .groupOpen .groupClose what) >>= next condition)
      (Plan.perform .place >>= fun condition =>
        Plan.perform (.closing .groupOpen .groupClose what) >>= next' condition)
          placeAfter := by
  rintro machine _ ⟨near⟩
  rename_i cursor trace
  have told : ∀ machine, (Plan.perform .place).run machine = .ok machine.cursor machine :=
    fun _ => rfl
  refine .bind (told machine) (told _) ?_
  intro after result carried avoids
  have opened := carried
  rw [Plan.run_bind] at opened
  obtain ⟨behind, _, located, continued⟩ := bind_eq_ok.mp opened
  obtain ⟨found, rfl⟩ := run_closing_eq_ok.mp located
  obtain ⟨middle, closed, expression, closes⟩ := looks _ _ _ _ _ continued
  obtain rfl : behind = closed :=
    Option.some.inj (found.symm.trans (Exec.closing?_of_expression expression closes))
  obtain ⟨limit, bindings, value, evaluated⟩ := expression
  obtain ⟨middle', evaluated', nearMiddle⟩ := near.evaluate evaluated
  obtain ⟨token, parts, -, isCloser⟩ := closes
  rw [parts] at nearMiddle
  obtain ⟨rest', parts', -, nearBehind⟩ := nearMiddle.cons
  have found' : cursor.closing? .groupOpen .groupClose = some ⟨some token, rest'⟩ :=
    Exec.closing?_of_expression ⟨limit, bindings, value, evaluated'⟩ ⟨token, parts',
      rfl, isCloser⟩
  have carriesNext := carries machine.cursor cursor behind ⟨some token, rest'⟩ near
    (nearBehind (isCloser ▸ by decide)) machine (machine.retrace cursor trace) (.intro near)
  exact carriesNext.bind located (run_closing_eq_ok.mpr ⟨found', rfl⟩) after result
    carried avoids

/-! ## Statements side by side -/

theorem passWord :
    splice.Carries (splice.Ready 1) (Plan.perform .pass) (Plan.perform .pass) splice.Near :=
  (pass 0).weaken id Ready.near

theorem printStatement :
    splice.Carries (splice.Ready 1) .printStatement .printStatement splice.Near :=
  passWord.bind fun _ => (expect (by decide) _).bind fun _ => evaluate.bind fun _ =>
    (expect (by decide) _).bind fun _ => blind (.write _)

theorem declarationStatement :
    splice.Carries (splice.Ready 1) .declarationStatement .declarationStatement splice.Near :=
  passWord.bind fun _ => (expectName _).bind fun _ => (expect (by decide) _).bind fun _ =>
    evaluate.bind fun _ => (blind (.declare _ _)).bind fun _ => blind (.note _)

theorem assignTo (name : Text) (assignment : Exec.Assignment) :
    splice.Carries splice.Near (.assignTo name assignment) (.assignTo name assignment)
      splice.Near :=
  evaluate.bind fun _ => (blind (.combine _ _ _)).bind fun _ =>
    (blind (.assign _ _)).bind fun _ => blind (.note _)

theorem assignmentStatement (name : Text) (assignment : Exec.Assignment) :
    splice.Carries (splice.Ready 2) (.assignmentStatement name assignment)
      (.assignmentStatement name assignment) splice.Near := by
  refine (blind (.valueOf name)).bind fun current => ?_
  split
  · exact (pass 1).bind fun _ => passWord.bind fun _ => assignTo name assignment
  · exact stop _ _

theorem identifierStatement :
    splice.Carries (splice.Ready 1) .identifierStatement .identifierStatement splice.Near := by
  refine peek 0 (fun ready => ready.near.next_eq) fun target =>
    peek 1 (fun ready => ready.1.getElem?_eq) fun sign => ?_
  split
  · next target assignment assigns =>
      obtain ⟨sign, rfl, known⟩ := Option.bind_eq_some_iff.mp assigns
      have other : sign.kind ≠ .blockOpen := by
        intro opens
        rw [opens] at known
        cases known
      refine (assignmentStatement target.lexeme assignment).weaken
        (fun {rest rest'} held => ?_) id
      obtain ⟨⟨ready, -⟩, second⟩ := held
      refine ⟨ready.near, fun token member => ?_⟩
      match rest, second with
      | first :: _ :: behind, second =>
          cases second
          simp only [List.take_succ_cons, List.take_zero, List.mem_cons, List.not_mem_nil,
            or_false] at member
          rcases member with rfl | rfl
          · exact ready.next token (by simp)
          · exact other
  · exact (evaluate.bind fun _ => pure _).weaken (fun held => held.1.1.near) id

theorem inputStatement :
    splice.Carries (splice.Ready 1) .inputStatement .inputStatement splice.Near := by
  refine passWord.bind fun _ => (expect (by decide) _).bind fun _ =>
    (expectName _).bind fun name =>
    (expect (by decide) _).bind fun _ => (blind (.valueOf name)).bind fun current => ?_
  cases current with
  | none => exact stop _ _
  | some current =>
      refine (blind .read).bind fun line => ?_
      cases Value.ofInput current.ty line with
      | error error => exact stop _ _
      | ok value => exact (blind (.assign name value)).bind fun _ => blind (.note _)

theorem returnStatement :
    splice.Carries (splice.Ready 1) .returnStatement .returnStatement splice.Near :=
  passWord.bind fun _ => evaluate.bind fun _ => (blind (.giveBack _)).bind fun _ =>
    blind (.note _)

theorem breakStatement :
    splice.Carries (splice.Ready 1) .breakStatement .breakStatement splice.Near :=
  passWord.bind fun _ => (blind (.ofFlags (by decide))).bind fun _ => blind (.note _)

theorem continueStatement :
    splice.Carries (splice.Ready 1) .continueStatement .continueStatement splice.Near :=
  passWord.bind fun _ => (blind (.ofFlags (by decide))).bind fun _ => blind (.note _)

section Composed

variable {block : Plan Unit} (carriesBlock : splice.Carries splice.Near block block splice.Near)

include carriesBlock

theorem branch (taken : Bool) :
    splice.Carries splice.Wide (.branch block taken) (.branch block taken) splice.Near := by
  cases taken with
  | true => exact enterBlock.bind fun _ => carriesBlock
  | false => exact skipBlock

theorem elseBranch (taken : Bool) :
    splice.Carries splice.Near (.elseBranch block taken) (.elseBranch block taken)
      splice.Near := by
  refine peek 0 Near.next_eq fun next => ?_
  split
  · next present =>
      refine (passWord.bind fun _ => (expectBlock _).bind fun _ =>
        branch carriesBlock taken).weaken (fun held => held.1.ready_one held.2 ?_) id
      rintro token rfl
      rw [Option.map_some, Option.some.injEq] at present
      rw [present]
      decide
  · exact (pure ()).weaken And.left id

theorem branches (condition : Value) :
    splice.Carries splice.Near (.branches block condition) (.branches block condition)
      splice.Near := by
  cases condition with
  | boolean holds =>
      exact (expectBlock _).bind fun _ => (blind (.note _)).bind fun _ =>
        (branch carriesBlock holds).bind fun _ =>
        (elseBranch carriesBlock (!holds)).bind fun _ => expect (by decide) _
  | _ => exact stop _ _

theorem conditionalStatement :
    splice.Carries (splice.Ready 1) (.conditionalStatement block) (.conditionalStatement block)
      splice.Near :=
  passWord.bind fun _ => (expect (by decide) _).bind fun _ => evaluate.bind fun condition =>
    (expect (by decide) _).bind fun _ => branches carriesBlock condition

omit carriesBlock

/-- The part of a loop behind its condition succeeds only if its turns do. -/
theorem turns_of_loopBody {turns : Cursor → Plan Nat} {machine after : Machine} {result : Unit}
    (carried : (Plan.loopBody turns).run machine = .ok result after) :
    ∃ body start count ended, (turns body).run start = .ok count ended := by
  simp only [Plan.loopBody, Plan.run_bind] at carried
  obtain ⟨_, _, -, carried⟩ := bind_eq_ok.mp carried
  obtain ⟨body, _, -, carried⟩ := bind_eq_ok.mp carried
  obtain ⟨_, start, -, carried⟩ := bind_eq_ok.mp carried
  obtain ⟨count, ended, turned, -⟩ := bind_eq_ok.mp carried
  exact ⟨body, start, count, ended, turned⟩

theorem loopBody {turns turns' : Cursor → Plan Nat}
    (carriesTurns : ∀ body body' : Cursor, splice.Wide body.rest body'.rest →
      splice.Carries splice.Wide (turns body) (turns' body') splice.Near) :
    splice.Carries splice.Near (.loopBody turns) (.loopBody turns') splice.Near := by
  refine (expectBlock _).bind fun _ => here fun body body' wide =>
    closingBlock fun after after' near => ?_
  exact (carriesTurns body body' wide).bind fun _ => (blind (.note _)).bind fun _ =>
    (blind (.ofFlags (by decide))).bind fun _ => (moveTo near).bind fun _ =>
      expect (by decide) _

variable {turns : Cursor → Cursor → Plan Nat}
  (passes : Exec.PassesCondition fun condition body => (turns condition body).run)
  (carriesTurns : ∀ condition condition' body body' : Cursor,
    splice.Near condition.rest condition'.rest →
    splice.Wide body.rest body'.rest →
    splice.Carries splice.Wide (turns condition body) (turns condition' body') splice.Near)

include passes carriesTurns

theorem loopStatement :
    splice.Carries (splice.Ready 1) (.loopStatement turns) (.loopStatement turns)
      splice.Near := by
  refine passWord.bind fun _ => (expect (by decide) _).bind fun _ => condition ?_ ?_
  · intro condition behind machine after result carried
    rw [Plan.run_bind] at carried
    obtain ⟨_, _, -, looped⟩ := bind_eq_ok.mp carried
    obtain ⟨body, start, count, ended, turned⟩ := turns_of_loopBody looped
    exact passes condition body start count ended turned
  · intro condition condition' behind behind' near nearBehind
    exact (moveTo nearBehind).bind fun _ => loopBody fun body body' wide =>
      carriesTurns condition condition' body body' near wide

include carriesBlock

theorem statementBody :
    splice.Carries splice.Near (.statementBody block turns) (.statementBody block turns)
      splice.Near := by
  refine peek 0 Near.next_eq fun next => ?_
  have ready : ∀ {kind : Kind}, next.map Token.kind = some kind → kind ≠ .blockOpen →
      ∀ {rest rest'}, splice.Near rest rest' ∧ rest[0]? = next → splice.Ready 1 rest rest' := by
    rintro kind isKind other rest rest' ⟨near, here⟩
    refine near.ready_one here ?_
    rintro token rfl
    rw [Option.map_some, Option.some.injEq] at isKind
    rwa [isKind]
  split
  · next isKind => exact printStatement.weaken (ready isKind (by decide)) id
  · next isKind => exact declarationStatement.weaken (ready isKind (by decide)) id
  · next isKind => exact identifierStatement.weaken (ready isKind (by decide)) id
  · next isKind =>
      exact (conditionalStatement carriesBlock).weaken (ready isKind (by decide)) id
  · next isKind =>
      exact (loopStatement passes carriesTurns).weaken (ready isKind (by decide)) id
  · next isKind => exact inputStatement.weaken (ready isKind (by decide)) id
  · next isKind => exact returnStatement.weaken (ready isKind (by decide)) id
  · next isKind => exact breakStatement.weaken (ready isKind (by decide)) id
  · next isKind => exact continueStatement.weaken (ready isKind (by decide)) id
  · exact stop _ _

end Composed

mutual

theorem statement (steps : Nat) :
    splice.Carries splice.Near (.statement steps) (.statement steps) splice.Near := by
  cases steps with
  | zero =>
      rw [Plan.statement]
      exact stop _ _
  | succ steps =>
      rw [Plan.statement]
      refine (blind (.ofFlags (by decide))).bind fun _ =>
        (expect (by decide) _).bind fun _ => ?_
      refine (statementBody (block steps) ?_ ?_).bind fun _ => expect (by decide) _
      · simp only [Plan.run_turns]
        exact Exec.turns_passesCondition steps 0
      · intro condition condition' body body' near wide
        exact turns steps near wide 0

theorem block (steps : Nat) :
    splice.Carries splice.Near (.block steps) (.block steps) splice.Near := by
  cases steps with
  | zero =>
      rw [Plan.block]
      exact stop _ _
  | succ steps =>
      rw [Plan.block]
      refine peek 0 Near.next_eq fun next => ?_
      cases next with
      | none => exact stop _ _
      | some token =>
          dsimp only
          split
          · next closes =>
              refine passWord.weaken (fun held => held.1.ready_one held.2 ?_) id
              rintro _ ⟨⟩
              rw [closes]
              decide
          · refine Carries.weaken (?_ : splice.Carries splice.Near _ _ splice.Near) And.left id
            refine (blind (.ofFlags (by decide))).bind fun flags => ?_
            split
            · exact skipBlock.weaken .near id
            · exact (statement steps).bind fun _ => block steps

theorem turns (steps : Nat) {start : List Token → List Token → Prop}
    {condition condition' body body' : Cursor}
    (near : splice.Near condition.rest condition'.rest)
    (wide : splice.Wide body.rest body'.rest) (count : Nat) :
    splice.Carries start (.turns steps condition body count)
      (.turns steps condition' body' count) splice.Near := by
  cases steps with
  | zero =>
      rw [Plan.turns]
      exact stop _ _
  | succ steps =>
      rw [Plan.turns, Plan.turns]
      refine (blind (.ofFlags (by decide))).bind fun _ => (moveTo near).bind fun _ =>
        evaluate.bind fun value => (expect (by decide) _).bind fun _ => ?_
      split
      · refine (moveTo wide).bind fun _ => enterBlock.bind fun _ => (block steps).bind fun _ =>
          (blind (.ofFlags (by decide))).bind fun flags => ?_
        split
        · exact pure _
        · exact turns steps near wide (count + 1)
      · exact pure _
      · exact (blind (.note _)).bind fun _ => pure _

end

theorem statements (steps : Nat) :
    splice.Carries splice.Near (.statements steps) (.statements steps) splice.Near := by
  induction steps with
  | zero => exact stop _ _
  | succ steps ih =>
      refine peek 0 Near.next_eq fun next => ?_
      refine Carries.weaken (?_ : splice.Carries splice.Near _ _ splice.Near) And.left id
      refine (blind (.ofFlags (by decide))).bind fun flags => ?_
      split
      · exact pure _
      · exact (statement steps).bind fun _ => ih

end Carries

end Splice

/-! ## Whole runs -/

namespace Program

/-- The announcement of a program changes nothing but the trace. -/
theorem announce_eq (tokens : List Token) (console : Console) :
    ∃ trace, announce tokens console = { console with trace } := by
  refine announce_keeps (fun after => ∃ trace, after = { console with trace }) ?_ tokens
    ⟨console.trace, rfl⟩
  rintro after event ⟨trace, rfl⟩
  exact ⟨_, Console.note_eq _ event⟩

/-- The machines before two programs differ in the place and the trace only. -/
theorem initial_retrace (strict : Bool) (tokens other : List Token) (console : Console) :
    ∃ trace, initial strict other console =
      (initial strict tokens console).retrace (.start other) trace := by
  obtain ⟨trace, announced⟩ := announce_eq tokens console
  obtain ⟨trace', announced'⟩ := announce_eq other console
  refine ⟨trace', ?_⟩
  rw [initial, initial, announced, announced']
  rfl

/-- A run that ends well and never enters the spliced block ends in the same way with the other
tokens inside. -/
theorem run_of_splice (splice : Splice) (front : List Token) {steps : Nat} {strict : Bool}
    {console after : Console} {report : Report}
    (reported : run steps strict (front ++ splice.opener :: splice.inside) console =
      (.reported report, after))
    (succeeded : report.succeeded)
    (avoids : splice.Avoids
      (history steps strict (front ++ splice.opener :: splice.inside) console)) :
    ∃ after', run steps strict (front ++ splice.opener :: splice.insideOther) console =
      (.reported report, after') ∧ after'.output = after.output ∧ after'.feed = after.feed := by
  obtain ⟨trace, start⟩ := initial_retrace strict (front ++ splice.opener :: splice.inside)
    (front ++ splice.opener :: splice.insideOther) console
  rw [run_eq_conclude] at reported
  rw [run_eq_conclude, start]
  cases carried : (Plan.statements steps).run
    (initial strict (front ++ splice.opener :: splice.inside) console) with
  | ok result machine =>
      have near : splice.Near (Cursor.start (front ++ splice.opener :: splice.inside)).rest
          (Cursor.start (front ++ splice.opener :: splice.insideOther)).rest :=
        .ahead front
      obtain ⟨_, carried', ⟨-⟩⟩ :=
        Splice.Carries.statements steps _ _ (.intro near) machine result carried avoids
      rw [carried] at reported
      cases reported
      rw [carried']
      refine ⟨_, rfl, ?_, ?_⟩
      · rw [Console.note_output, Console.note_output]
        rfl
      · rw [Console.note_feed, Console.note_feed]
        rfl
  | error reason machine =>
      rw [carried] at reported
      cases reason with
      | failure cause =>
          cases reported
          cases succeeded
      | undefinedRemainder | outOfSteps => cases reported

/-- **Skipped code is opaque.** Let a program end well that has a balanced stretch of tokens
between the opener and the closer of a block, and let its run never enter this block, that is,
never enter a block right behind this opener. Then the program with any other balanced stretch
in this place ends with the same report, has written the same lines and has read the same input.
-/
theorem run_independent_of_skipped {steps : Nat} {strict : Bool} {console after : Console}
    {front skipped other back : List Token} {report : Report}
    (opens : front.getLast?.map Token.kind = some .blockOpen)
    (closes : back.head?.map Token.kind = some .blockClose)
    (balanced : Balanced .blockOpen .blockClose skipped)
    (balancedOther : Balanced .blockOpen .blockClose other)
    (reported : run steps strict (front ++ skipped ++ back) console = (.reported report, after))
    (succeeded : report.succeeded)
    (neverEntered : ∀ moment ∈ history steps strict (front ++ skipped ++ back) console,
      moment.deed = .enterBlock →
        moment.machine.cursor.position (front ++ skipped ++ back) ≠ front.length) :
    ∃ after', run steps strict (front ++ other ++ back) console = (.reported report, after') ∧
      after'.output = after.output ∧ after'.feed = after.feed := by
  obtain ⟨opener, isLast, isOpener⟩ := Option.map_eq_some_iff.mp opens
  obtain ⟨closer, isFirst, isCloser⟩ := Option.map_eq_some_iff.mp closes
  obtain ⟨init, rfl⟩ := List.getLast?_eq_some_iff.mp isLast
  obtain ⟨rest, rfl⟩ := List.head?_eq_some_iff.mp isFirst
  let splice : Splice :=
    { opener, skipped, other, closer, back := rest, opens := isOpener, closes := isCloser,
      balanced, balancedOther }
  have whole : init ++ [opener] ++ skipped ++ closer :: rest =
      init ++ splice.opener :: splice.inside := by
    simp [splice, Splice.inside]
  have wholeOther : init ++ [opener] ++ other ++ closer :: rest =
      init ++ splice.opener :: splice.insideOther := by
    simp [splice, Splice.insideOther]
  rw [whole] at reported neverEntered
  rw [wholeOther]
  refine run_of_splice splice init reported succeeded fun moment member entered sameLength => ?_
  refine neverEntered moment member entered ?_
  rw [Cursor.position, sameLength]
  simp
  omega

/-- A loop with a conditional that never holds; the tokens up to the opener of its first block.
-/
def skippingFront : List Token :=
  declaringTokens ++ List.map Symbol.token
    [.sign .marker, .sign .whileKw, .sign .groupOpen, .name "x", .sign .lessThan,
      .literal (.int 3), .sign .groupClose, .sign .blockOpen, .sign .marker, .sign .ifKw,
      .sign .groupOpen, .literal (.boolean false), .sign .groupClose, .sign .blockOpen]

/-- A print, which no run of the loop comes to. -/
def skippedPrint : List Token :=
  List.map Symbol.token
    [.sign .marker, .sign .printKw, .sign .groupOpen, .name "x", .sign .groupClose,
      .sign .marker]

/-- Tokens that are no statements at all, around an empty block. -/
def skippedRubble : List Token :=
  List.map Symbol.token
    [.sign .unknown, .sign .groupClose, .sign .blockOpen, .sign .varKw, .sign .blockClose,
      .literal (.string "")]

/-- The rest of the loop, from the closer of that block on; the other block counts. -/
def skippingBack : List Token :=
  List.map Symbol.token
    [.sign .blockClose, .sign .elseKw, .sign .blockOpen, .sign .marker, .name "x",
      .sign .plusAssign, .literal (.int 1), .sign .marker, .sign .blockClose, .sign .breakKw,
      .sign .marker, .sign .blockClose, .sign .breakKw, .sign .marker]

/-- A print in the block that is never entered may be replaced by tokens that are no statements
at all. -/
theorem run_independent_of_skipped_counting :
    (run 20 false (skippingFront ++ skippedPrint ++ skippingBack) {}).1 =
      .reported ⟨none, none, [("x", .int 3)], []⟩ ∧
    (run 20 false (skippingFront ++ skippedRubble ++ skippingBack) {}).1 =
      .reported ⟨none, none, [("x", .int 3)], []⟩ := by
  have ended : (run 20 false (skippingFront ++ skippedPrint ++ skippingBack) {}).1 =
      .reported ⟨none, none, [("x", .int 3)], []⟩ := by
    decide +kernel
  have reported := Prod.eta (run 20 false (skippingFront ++ skippedPrint ++ skippingBack) {})
  rw [ended] at reported
  have balancedOther : Balanced .blockOpen .blockClose skippedRubble := by decide +kernel
  obtain ⟨after, reportedOther, -⟩ :=
    run_independent_of_skipped (by decide +kernel) (by decide +kernel)
      (by decide +kernel) balancedOther reported.symm rfl (by decide +kernel)
  exact ⟨ended, by rw [reportedOther]⟩

end Program

end ToonScript
