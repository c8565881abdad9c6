import ToonScript.Proofs.Contract
import ToonScript.Proofs.Tree.Printing
import ToonScript.Proofs.Veil

/-!
# Input lines

A run depends on the input lines that it reads, and on no others. On every feed that gives the
same lines at these reads it comes to the same ending and reads as many lines
(`Program.run_depends_on_lines_read`). How many lines a run reads depends on its data, because
input stands in loops and branches; so the number is not known before the run.

The first part compares two feeds. All deeds but one do not touch the feed, and the one that
reads takes the next line of it; so a plan goes the same way on two feeds that give the same
lines at its reads (`Plan.run_fed`).

The second part counts. A statement asks for a line when it is an input statement whose tokens
are in order and whose variable is declared. Each such statement reads one line, and no other
statement reads a line of its own (`Plan.statements_keepsAccounts`).
-/

set_option autoImplicit false

namespace ToonScript

open Token (Kind)

/-! ## Feeds -/

namespace Feed

/-- The line that a read gives, counted from zero. A read past the end gives the empty line. -/
def line (feed : Feed) (index : Nat) : Text := feed.lines[index]?.getD ""

/-- The feed after a number of reads. -/
def skip (feed : Feed) (count : Nat) : Feed := ⟨feed.lines.drop count, feed.taken + count⟩

theorem next_eq (feed : Feed) : feed.next = (feed.line 0, feed.skip 1) := by
  rw [next, line, skip, List.head?_eq_getElem?, List.drop_one]

theorem skip_zero (feed : Feed) : feed.skip 0 = feed := rfl

theorem skip_skip (feed : Feed) (count more : Nat) :
    (feed.skip count).skip more = feed.skip (count + more) := by
  simp only [skip, List.drop_drop, Nat.add_assoc]

theorem line_skip (feed : Feed) (count index : Nat) :
    (feed.skip count).line index = feed.line (count + index) := by
  rw [line, skip, List.getElem?_drop, line]

/-- Empty lines at the end of a feed are those that a read past the end gives. -/
theorem line_append_empty (lines : List Text) (taken count index : Nat) :
    line ⟨lines ++ List.replicate count ("" : Text), taken⟩ index =
      line ⟨lines, taken⟩ index := by
  simp only [line, List.getElem?_append, List.getElem?_replicate]
  split
  · rfl
  · next past =>
      rw [List.getElem?_eq_none (Nat.le_of_not_lt past)]
      split <;> rfl

end Feed

/-- The console with another feed. -/
def Console.fed (console : Console) (feed : Feed) : Console := { console with feed }

/-- The machine with another feed. -/
def Machine.fed (machine : Machine) (feed : Feed) : Machine :=
  { machine with console := machine.console.fed feed }

theorem Console.note_fed (console : Console) (feed : Feed) (event : Event) :
    (console.fed feed).note event = (console.note event).fed feed := by
  by_cases kept : event.level ≤ console.verbosity
  · simp only [note, fed, kept, ↓reduceIte]
  · simp only [note, fed, kept, ↓reduceIte]

/-! ## Computations on two feeds -/

namespace Exec

variable {α : Type}

/-- The results of a computation on two machines that differ in their feeds: they agree, and a
number of lines has been read from both feeds. -/
abbrev Fed (before feed : Feed) (count : Nat) :
    EStateM.Result Stop Machine α → EStateM.Result Stop Machine α → Prop :=
  Matched (·.fed (feed.skip count)) (·.console.feed = before.skip count)

/-- Lines that are read later are read behind those that were read before. -/
theorem Fed.later {before feed : Feed} {count more : Nat}
    {result other : EStateM.Result Stop Machine α}
    (fed : Fed (before.skip count) (feed.skip count) more result other) :
    Fed before feed (count + more) result other := by
  rw [Fed, Feed.skip_skip, Feed.skip_skip] at fed
  exact fed

end Exec

/-- The change to another feed. The feed is kept. -/
def Veil.fed (feed : Feed) : Veil Feed :=
  .ofConsole (·.fed feed) Console.feed (fun _ => True) (fun _ => rfl)
    (fun _ => Console.note_fed _ feed) (fun _ _ => rfl) Console.note_feed fun _ _ => rfl

/-- Every deed but a read goes the same way on every feed, and reads nothing from it. -/
theorem Deed.perform_fed {deed : Deed} (other : deed ≠ .read) (machine : Machine)
    (feed : Feed) :
    Exec.Fed machine.console.feed feed 0 (deed.perform machine)
      (deed.perform (machine.fed feed)) :=
  perform_oblivious (Veil.fed feed)
    (fun name value _ => .assign (fun _ => rfl) (fun _ _ _ => rfl) name value)
    (fun isRead => absurd isRead other) machine trivial

/-- A read takes the next line. -/
theorem Deed.perform_read (machine : Machine) :
    Deed.read.perform machine =
      .ok (machine.console.feed.line 0) (machine.fed (machine.console.feed.skip 1)) := by
  have taken := machine.console.feed.next_eq
  show EStateM.Result.ok machine.console.feed.next.1 (machine.fed machine.console.feed.next.2) =
    _
  rw [taken]

namespace Plan

variable {α β : Type}

/-- How many lines are read while a plan is carried out. -/
def reads (plan : Plan α) (machine : Machine) : Nat :=
  (plan.history machine).countP (·.deed = .read)

theorem reads_act_of_ok {deed : Deed} {next : deed.Result → Plan α} {machine after : Machine}
    {result : deed.Result} (performed : deed.perform machine = .ok result after) :
    (act deed next).reads machine = (if deed = .read then 1 else 0) +
      (next result).reads after := by
  rw [reads, history_act_of_ok performed, List.countP_cons, Nat.add_comm, reads]
  simp only [decide_eq_true_eq]

/-- **A plan goes the same way on two feeds that give the same lines at its reads.** -/
theorem run_fed (plan : Plan α) (machine : Machine) (feed : Feed)
    (agree : ∀ index < plan.reads machine, feed.line index = machine.console.feed.line index) :
    Exec.Fed machine.console.feed feed (plan.reads machine) (plan.run machine)
      (plan.run (machine.fed feed)) := by
  induction plan generalizing machine feed with
  | done result => exact .ok rfl
  | stop reason => exact .error rfl
  | act deed next ih =>
      by_cases isRead : deed = .read
      · subst isRead
        have here := Deed.perform_read machine
        have there := Deed.perform_read (machine.fed feed)
        rw [reads_act_of_ok here, if_pos rfl] at agree ⊢
        have sameLine : (machine.fed feed).console.feed.line 0 = machine.console.feed.line 0 :=
          agree 0 (Nat.lt_add_right _ Nat.one_pos)
        rw [sameLine] at there
        rw [run_act, bind_of_ok here, bind_of_ok there]
        refine (ih _ (machine.fed (machine.console.feed.skip 1)) (feed.skip 1)
          fun index inside => ?_).later
        have shifted := agree (1 + index) (Nat.add_lt_add_left inside 1)
        rwa [← Feed.line_skip, ← Feed.line_skip] at shifted
      · have begun := Deed.perform_fed isRead machine feed
        generalize here : deed.perform machine = result at begun
        generalize there : deed.perform (machine.fed feed) = other at begun
        cases begun with
        | @ok given after left =>
            rw [reads_act_of_ok here, if_neg isRead, Nat.zero_add] at agree ⊢
            rw [run_act, bind_of_ok here, bind_of_ok there]
            rw [Feed.skip_zero] at left
            rw [← left] at agree ⊢
            exact ih given after feed agree
        | error left =>
            have none : (act deed next).reads machine = 0 := by
              rw [reads, history_act_of_error here]
              exact List.countP_eq_zero.mpr (by simpa using isRead)
            rw [none, run_act, bind_of_error here, bind_of_error there]
            exact .error left

/-- The feed after a plan is the one before it without the lines that were read. -/
theorem final_feed (plan : Plan α) (machine : Machine) :
    (plan.final machine).console.feed = machine.console.feed.skip (plan.reads machine) := by
  have fed := plan.run_fed machine machine.console.feed fun _ _ => rfl
  rw [final]
  generalize plan.run machine = result, plan.run (machine.fed machine.console.feed) =
    other at fed ⊢
  cases fed with
  | ok left => exact left
  | error left => exact left

end Plan

/-! ## Statements that ask for a line -/

/-- The next token is of a kind, and behind it something is the case. -/
def Machine.passes (kind : Kind) (behind : Token → Machine → Bool) (machine : Machine) : Bool :=
  match machine.cursor.rest with
  | [] => false
  | token :: rest =>
      token.kind = kind && behind token { machine with cursor := ⟨some token, rest⟩ }

/-- Whether the tokens ahead are those of an input statement behind its marker, and its variable
is declared. -/
def Machine.asksInside : Machine → Bool :=
  passes .inputKw fun _ => passes .groupOpen fun _ => passes .identifier fun name =>
    passes .groupClose fun _ machine => machine.env.declares name.lexeme

/-- Whether the statement ahead asks for a line: it is an input statement, its tokens up to the
closing bracket are in order, and its variable is declared. -/
def Machine.asks : Machine → Bool := passes .marker fun _ => asksInside

/-- Whether a statement is begun that asks for a line. -/
def Moment.asks (moment : Moment) : Bool := moment.deed = .beginStatement && moment.machine.asks

theorem Moment.asks_of_ne {moment : Moment} (other : moment.deed ≠ .beginStatement) :
    moment.asks = false := by
  rw [asks, decide_eq_false other, Bool.false_and]

theorem Moment.countP_asks_cons (first : Moment) (later : List Moment) :
    (first :: later).countP asks = first.asks.toNat + later.countP asks := by
  rw [List.countP_cons, Nat.add_comm]
  cases first.asks <;> rfl

section Passes

variable {kind : Kind} {behind : Token → Machine → Bool} {machine : Machine} {token : Token}
  {rest : List Token}

theorem Machine.passes_of_kind (parts : machine.cursor.rest = token :: rest)
    (isKind : token.kind = kind) :
    machine.passes kind behind =
      behind token { machine with cursor := ⟨some token, rest⟩ } := by
  simp only [passes, parts, isKind, decide_true, Bool.true_and]

theorem Machine.passes_of_ne (parts : machine.cursor.rest = token :: rest)
    (other : token.kind ≠ kind) :
    machine.passes kind behind = false := by
  simp only [passes, parts, other, decide_false, Bool.false_and]

/-- Where a token of the kind does not stand, nothing behind it matters. -/
theorem Machine.passes_of_forall
    (never : ∀ token rest, machine.cursor.rest = token :: rest → token.kind ≠ kind) :
    machine.passes kind behind = false := by
  cases parts : machine.cursor.rest with
  | nil => simp only [passes, parts]
  | cons token rest => exact passes_of_ne parts (never token rest parts)

end Passes

/-! ## Accounts -/

/-- The deeds that neither begin a statement nor read a line. -/
def Deed.isQuiet : Deed → Bool
  | beginStatement | read => false
  | _ => true

theorem Deed.feed_of_ne {deed : Deed} (other : deed ≠ .read) {machine after : Machine} :
    (∀ {result}, deed.perform machine = .ok result after →
      after.console.feed = machine.console.feed) ∧
      ∀ {reason}, deed.perform machine = .error reason after →
        after.console.feed = machine.console.feed := by
  have fed := perform_fed other machine machine.console.feed
  generalize deed.perform machine = result, deed.perform (machine.fed machine.console.feed) =
    there at fed ⊢
  cases fed with
  | ok left =>
      refine ⟨fun same => ?_, nofun⟩
      cases same
      exact left
  | error left =>
      refine ⟨nofun, fun same => ?_⟩
      cases same
      exact left

namespace Plan

variable {α β : Type} {machine : Machine} {owed : Nat}

/-- Carrying a plan out keeps accounts: at first some lines are owed, which are read before a
statement is begun, and from then on every statement that asks for a line has read it before the
next one is begun. -/
structure Accounts (plan : Plan α) (machine : Machine) (owed : Nat) : Prop where
  begins : ∀ {earlier later start}, plan.history machine =
    earlier ++ ⟨.beginStatement, start⟩ :: later →
    start.console.feed.taken = machine.console.feed.taken + owed + earlier.countP Moment.asks
  ends : (plan.final machine).console.feed.taken =
    machine.console.feed.taken + owed + (plan.history machine).countP Moment.asks

namespace Accounts

theorem pure (result : α) : (pure result : Plan α).Accounts machine 0 where
  begins {earlier _ _} parts := by cases earlier <;> cases parts
  ends := rfl

theorem stop (reason : Stop) : (stop reason : Plan α).Accounts machine 0 where
  begins {earlier _ _} parts := by cases earlier <;> cases parts
  ends := rfl

/-- A deed pays what was owed before, or adds to what is owed after it. -/
theorem act {deed : Deed} {next : deed.Result → Plan α} {result : deed.Result} {after : Machine}
    {owedNext : Nat} (performed : deed.perform machine = .ok result after)
    (settled : deed = .beginStatement → owed = 0)
    (balance : after.console.feed.taken + owedNext =
      machine.console.feed.taken + owed + (Moment.asks ⟨deed, machine⟩).toNat)
    (accounts : (next result).Accounts after owedNext) :
    (perform deed >>= next).Accounts machine owed := by
  have recorded : (perform deed >>= next).history machine =
      ⟨deed, machine⟩ :: (next result).history after :=
    history_act_of_ok performed
  have ended : (perform deed >>= next).final machine = (next result).final after :=
    final_act_of_ok performed
  constructor
  · intro earlier later start parts
    rw [recorded] at parts
    cases earlier with
    | nil =>
        obtain ⟨same, -⟩ := List.cons.inj parts
        cases same
        rw [settled rfl]
        rfl
    | cons first earlier =>
        obtain ⟨rfl, behind⟩ := List.cons.inj parts
        rw [accounts.begins behind, balance, Moment.countP_asks_cons, Nat.add_assoc]
  · rw [ended, recorded, accounts.ends, balance, Moment.countP_asks_cons, Nat.add_assoc]

/-- A deed that neither begins a statement nor reads a line. It may stop where nothing is owed.
-/
theorem quietly {deed : Deed} {next : deed.Result → Plan α} (isQuiet : deed.isQuiet)
    (accounts : ∀ result after, deed.perform machine = .ok result after →
      (next result).Accounts after owed)
    (stops : ∀ reason after, deed.perform machine = .error reason after → owed = 0) :
    (perform deed >>= next).Accounts machine owed := by
  have notBegin : deed ≠ .beginStatement := by
    rintro rfl
    cases isQuiet
  have notRead : deed ≠ .read := by
    rintro rfl
    cases isQuiet
  have silent : Moment.asks ⟨deed, machine⟩ = false := Moment.asks_of_ne notBegin
  cases performed : deed.perform machine with
  | ok result after =>
      refine act performed (fun isBegin => absurd isBegin notBegin) ?_
        (accounts result after performed)
      rw [(Deed.feed_of_ne notRead).1 performed, silent]
      rfl
  | error reason after =>
      have recorded : (perform deed >>= next).history machine = [⟨deed, machine⟩] :=
        history_act_of_error performed
      have ended : (perform deed >>= next).final machine = after := final_act_of_error performed
      obtain rfl := stops reason after performed
      constructor
      · intro earlier later start parts
        rw [recorded] at parts
        cases earlier with
        | nil =>
            obtain ⟨same, -⟩ := List.cons.inj parts
            exact absurd (congrArg Moment.deed same) notBegin
        | cons first earlier => cases earlier <;> cases (List.cons.inj parts).2
      · rw [ended, recorded, (Deed.feed_of_ne notRead).2 performed,
          Moment.countP_asks_cons, silent]
        rfl

/-- A read pays one line. -/
theorem read {next : Text → Plan α} (accounts : ∀ line after, (next line).Accounts after 0) :
    (perform .read >>= next).Accounts machine 1 := by
  have silent : Moment.asks ⟨.read, machine⟩ = false := rfl
  refine act (Deed.perform_read machine) (by decide) ?_ (accounts _ _)
  rw [silent]
  rfl

/-- A statement that asks for a line owes one. -/
theorem begun {plan : Plan α} (accounts : plan.Accounts machine machine.asks.toNat) :
    (perform .beginStatement >>= fun _ => plan).Accounts machine 0 := by
  refine act rfl (fun _ => rfl) ?_ accounts
  rw [Moment.asks, decide_eq_true rfl, Bool.true_and, Nat.add_zero]

theorem bind {plan : Plan α} {next : α → Plan β} (accounts : plan.Accounts machine owed)
    (accountsNext : ∀ result after, (next result).Accounts after 0) :
    (plan >>= next).Accounts machine owed := by
  cases carried : plan.run machine with
  | ok result middle =>
      have paid := accounts.ends
      rw [final_of_ok carried] at paid
      constructor
      · intro earlier later start parts
        have late : ∀ between, (next result).history middle =
            between ++ ⟨.beginStatement, start⟩ :: later →
            earlier = plan.history machine ++ between →
            start.console.feed.taken = machine.console.feed.taken + owed +
              earlier.countP Moment.asks := by
          rintro between behind rfl
          rw [(accountsNext result middle).begins behind, paid, List.countP_append,
            Nat.add_zero, Nat.add_assoc]
        rw [history_bind_of_ok carried] at parts
        rcases List.append_eq_append_iff.mp parts with
          ⟨between, isEarlier, parts⟩ | ⟨rest, isFirst, parts⟩
        · exact late between parts isEarlier
        · cases rest with
          | nil => exact late [] parts.symm (by rw [isFirst, List.append_nil, List.append_nil])
          | cons begun rest =>
              obtain ⟨rfl, -⟩ := List.cons.inj parts
              exact accounts.begins isFirst
      · rw [final_bind_of_ok carried, history_bind_of_ok carried,
          (accountsNext result middle).ends, paid, List.countP_append, Nat.add_zero,
          Nat.add_assoc]
  | error reason middle =>
      have same : (plan >>= next).history machine = plan.history machine :=
        history_bind_of_error carried
      constructor
      · intro earlier later start parts
        rw [same] at parts
        exact accounts.begins parts
      · rw [final_bind_of_error carried, same, ← final_of_error carried]
        exact accounts.ends

section Passing

variable {kind : Kind} {behind : Token → Machine → Bool}

/-- A token of a kind is passed. What is owed if it is there is owed behind it. -/
theorem expect {context : Text} {plan : Plan α}
    (accounts : ∀ token after, plan.Accounts after (behind token after).toNat) :
    (perform (.expect kind context) >>= fun _ => plan).Accounts machine
      (machine.passes kind behind).toNat := by
  refine quietly rfl (fun _ after performed => ?_) fun reason after performed => ?_
  · obtain ⟨token, rest, parts, isKind, rfl⟩ := Exec.expect_eq_ok.mp performed
    rw [Machine.passes_of_kind parts isKind]
    exact accounts token _
  · have never : ∀ token rest, machine.cursor.rest = token :: rest → token.kind ≠ kind := by
      intro token rest parts isKind
      cases performed.symm.trans (Exec.expect_of_kind parts isKind context)
    rw [Machine.passes_of_forall never]
    rfl

theorem expectName {context : Text} {next : Text → Plan α}
    (accounts : ∀ token after, (next token.lexeme).Accounts after (behind token after).toNat) :
    (perform (.expectName context) >>= next).Accounts machine
      (machine.passes .identifier behind).toNat := by
  refine quietly rfl (fun _ after performed => ?_) fun reason after performed => ?_
  · obtain ⟨token, rest, parts, isKind, rfl, rfl⟩ := Exec.expectName_eq_ok.mp performed
    rw [Machine.passes_of_kind parts isKind]
    exact accounts token _
  · have never : ∀ token rest, machine.cursor.rest = token :: rest →
        token.kind ≠ .identifier := by
      intro token rest parts isKind
      cases performed.symm.trans
        (Exec.expectName_eq_ok.mpr ⟨token, rest, parts, isKind, rfl, rfl⟩)
    rw [Machine.passes_of_forall never]
    rfl

/-- The kind of the token may be known before it is passed. -/
theorem pass {plan : Plan α}
    (isKind : ∀ token rest, machine.cursor.rest = token :: rest → token.kind = kind)
    (accounts : ∀ token after, plan.Accounts after (behind token after).toNat) :
    (perform .pass >>= fun _ => plan).Accounts machine (machine.passes kind behind).toNat := by
  refine quietly rfl (fun _ after performed => ?_) fun reason after performed => ?_
  · obtain ⟨token, rest, parts, rfl⟩ := Exec.pass_eq_ok.mp performed
    rw [Machine.passes_of_kind parts (isKind token rest parts)]
    exact accounts token _
  · obtain ⟨-, ended, -⟩ := Exec.pass_eq_error performed
    simp only [Machine.passes, ended, Bool.toNat_false]

end Passing

/-- An input statement reads one line if its tokens are in order and its variable is declared,
and none otherwise. -/
theorem inputStatement
    (isInput : ∀ token rest, machine.cursor.rest = token :: rest → token.kind = .inputKw) :
    inputStatement.Accounts machine machine.asksInside.toNat := by
  refine pass isInput fun _ _ => expect fun _ _ => expectName fun name _ =>
    expect fun _ machine => ?_
  refine quietly rfl (fun current after performed => ?_) fun _ _ performed => by cases performed
  cases performed
  cases known : machine.env.bindings.get? name.lexeme with
  | none =>
      rw [Environment.declares, known]
      exact stop _
  | some current =>
      rw [Environment.declares, known]
      refine read fun line after => ?_
      cases Value.ofInput current.ty line with
      | error error => exact stop _
      | ok value =>
          exact quietly rfl (fun _ _ _ => quietly rfl (fun _ _ _ => pure ()) fun _ _ _ => rfl)
            fun _ _ _ => rfl

end Accounts

/-! ## The accounts of a run -/

/-- A plan that keeps accounts wherever it is begun with nothing owed. -/
def KeepsAccounts (plan : Plan α) : Prop := ∀ machine, plan.Accounts machine 0

namespace KeepsAccounts

theorem pure (result : α) : (pure result : Plan α).KeepsAccounts := fun _ => .pure result

theorem stop (reason : Stop) : (stop reason : Plan α).KeepsAccounts := fun _ => .stop reason

theorem bind {plan : Plan α} {next : α → Plan β} (keeps : plan.KeepsAccounts)
    (keepsNext : ∀ result, (next result).KeepsAccounts) : (plan >>= next).KeepsAccounts :=
  fun machine => (keeps machine).bind keepsNext

/-- A deed that neither begins a statement nor reads a line, and then a plan. -/
theorem step {deed : Deed} {next : deed.Result → Plan α} (isQuiet : deed.isQuiet)
    (keeps : ∀ result, (next result).KeepsAccounts) : (perform deed >>= next).KeepsAccounts :=
  fun _ => .quietly isQuiet (fun result after _ => keeps result after) fun _ _ _ => rfl

theorem last {deed : Deed} (isQuiet : deed.isQuiet) : (perform deed).KeepsAccounts :=
  step isQuiet fun result => pure result

theorem printStatement : printStatement.KeepsAccounts :=
  step rfl fun _ => step rfl fun _ => step rfl fun _ => step rfl fun _ => last rfl

theorem declarationStatement : declarationStatement.KeepsAccounts :=
  step rfl fun _ => step rfl fun _ => step rfl fun _ => step rfl fun _ =>
    step rfl fun _ => last rfl

theorem assignTo (name : Text) (assignment : Exec.Assignment) :
    (assignTo name assignment).KeepsAccounts :=
  step rfl fun _ => step rfl fun _ => step rfl fun _ => last rfl

theorem identifierStatement : identifierStatement.KeepsAccounts := by
  refine step rfl fun target => step rfl fun sign => ?_
  split
  · refine step rfl fun current => ?_
    split
    · exact step rfl fun _ => step rfl fun _ => assignTo _ _
    · exact stop _
  · exact step rfl fun _ => pure ()

theorem returnStatement : returnStatement.KeepsAccounts :=
  step rfl fun _ => step rfl fun _ => step rfl fun _ => last rfl

theorem breakStatement : breakStatement.KeepsAccounts :=
  step rfl fun _ => step rfl fun _ => last rfl

theorem continueStatement : continueStatement.KeepsAccounts :=
  step rfl fun _ => step rfl fun _ => last rfl

section Blocks

variable {block : Plan Unit} (keepsBlock : block.KeepsAccounts)

include keepsBlock

theorem branch (taken : Bool) : (branch block taken).KeepsAccounts := by
  cases taken with
  | true => exact step rfl fun _ => keepsBlock
  | false => exact last rfl

theorem elseBranch (taken : Bool) : (elseBranch block taken).KeepsAccounts := by
  refine step rfl fun next => ?_
  split
  · exact step rfl fun _ => step rfl fun _ => branch keepsBlock taken
  · exact pure ()

theorem branches (condition : Value) : (branches block condition).KeepsAccounts := by
  cases condition with
  | boolean holds =>
      refine step rfl fun _ => step rfl fun _ => ?_
      exact (branch keepsBlock holds).bind fun _ =>
        (elseBranch keepsBlock _).bind fun _ => last rfl
  | _ => exact stop _

theorem conditionalStatement : (conditionalStatement block).KeepsAccounts :=
  step rfl fun _ => step rfl fun _ => step rfl fun condition => step rfl fun _ =>
    branches keepsBlock condition

variable {turns : Cursor → Cursor → Plan Nat}
  (keepsTurns : ∀ condition body, (turns condition body).KeepsAccounts)

include keepsTurns

omit keepsBlock in
theorem loopStatement : (loopStatement turns).KeepsAccounts := by
  refine step rfl fun _ => step rfl fun _ => step rfl fun condition => step rfl fun _ =>
    step rfl fun _ => ?_
  refine step rfl fun _ => step rfl fun body => step rfl fun after => ?_
  exact (keepsTurns condition body).bind fun _ => step rfl fun _ => step rfl fun _ =>
    step rfl fun _ => last rfl

/-- The part of a statement between its markers. Only an input statement owes a line. -/
theorem statementBody (machine : Machine) :
    (statementBody block turns).Accounts machine machine.asksInside.toNat := by
  refine .quietly rfl (fun next after performed => ?_) fun _ _ performed => by cases performed
  cases performed
  cases parts : machine.cursor.rest with
  | nil =>
      have silent : machine.asksInside = false := by
        simp only [Machine.asksInside, Machine.passes, parts]
      simp only [Cursor.peek, parts, silent]
      exact .stop _
  | cons first rest =>
      simp only [Cursor.peek, parts, List.getElem?_cons_zero, Option.map_some]
      by_cases isInput : first.kind = .inputKw
      · simp only [isInput]
        refine .inputStatement fun token rest' parts' => ?_
        cases parts.symm.trans parts'
        exact isInput
      · have silent : machine.asksInside = false := Machine.passes_of_ne parts isInput
        rw [silent]
        cases kind : first.kind with
        | printKw => exact printStatement machine
        | varKw => exact declarationStatement machine
        | identifier => exact identifierStatement machine
        | ifKw => exact conditionalStatement keepsBlock machine
        | whileKw => exact loopStatement keepsTurns machine
        | inputKw => exact absurd kind isInput
        | returnKw => exact returnStatement machine
        | breakKw => exact breakStatement machine
        | continueKw => exact continueStatement machine
        | _ => exact .stop _

end Blocks

end KeepsAccounts

mutual

theorem statement_keepsAccounts (steps : Nat) : (statement steps).KeepsAccounts := by
  cases steps with
  | zero => exact .stop _
  | succ steps =>
      intro machine
      rw [statement]
      have inside :=
        KeepsAccounts.statementBody (block_keepsAccounts steps) fun condition body =>
          turns_keepsAccounts steps condition body 0
      exact .begun (.expect fun _ after => (inside after).bind fun _ => KeepsAccounts.last rfl)

theorem block_keepsAccounts (steps : Nat) : (block steps).KeepsAccounts := by
  cases steps with
  | zero => exact .stop _
  | succ steps =>
      rw [block]
      refine .step rfl fun next => ?_
      cases next with
      | none => exact .stop _
      | some token =>
          dsimp only
          split
          · exact .last rfl
          · refine .step rfl fun flags => ?_
            split
            · exact .last rfl
            · exact (statement_keepsAccounts steps).bind fun _ => block_keepsAccounts steps

theorem turns_keepsAccounts (steps : Nat) (condition body : Cursor) (count : Nat) :
    (turns steps condition body count).KeepsAccounts := by
  cases steps with
  | zero => exact .stop _
  | succ steps =>
      rw [turns]
      refine .step rfl fun _ => .step rfl fun _ => .step rfl fun value => .step rfl fun _ => ?_
      split
      · refine .step rfl fun _ => .step rfl fun _ => (block_keepsAccounts steps).bind fun _ =>
          .step rfl fun flags => ?_
        split
        · exact .pure _
        · exact turns_keepsAccounts steps condition body (count + 1)
      · exact .pure _
      · exact .step rfl fun _ => .pure _

end

theorem statements_keepsAccounts (steps : Nat) : (statements steps).KeepsAccounts := by
  induction steps with
  | zero => exact .stop _
  | succ steps ih =>
      refine .step rfl fun next => .step rfl fun flags => ?_
      split
      · exact .pure ()
      · exact (statement_keepsAccounts steps).bind fun _ => ih

end Plan

/-! ## Whole runs -/

namespace Program

theorem announce_fed (tokens : List Token) (console : Console) (feed : Feed) :
    announce tokens (console.fed feed) = (announce tokens console).fed feed := by
  refine announce_relates (fun console fed => fed = console.fed feed) ?_ tokens rfl
  rintro started fed event rfl
  exact started.note_fed feed event

theorem initial_fed (strict : Bool) (tokens : List Token) (console : Console) (feed : Feed) :
    initial strict tokens (console.fed feed) = (initial strict tokens console).fed feed := by
  rw [initial, announce_fed]
  rfl

/-- The tokens are announced without a read. -/
theorem initial_feed (strict : Bool) (tokens : List Token) (console : Console) :
    (initial strict tokens console).console.feed = console.feed := by
  have same := initial_fed strict tokens console console.feed
  exact congrArg (·.console.feed) same

theorem conclude_of_fed {before feed : Feed} {count : Nat}
    {result other : EStateM.Result Stop Machine Unit}
    (fed : Exec.Fed before feed count result other) :
    conclude other = ((conclude result).1, (conclude result).2.fed (feed.skip count)) ∧
      (conclude result).2.feed = before.skip count := by
  cases fed with
  | ok left => exact ⟨Prod.ext rfl (Console.note_fed _ _ _), (Console.note_feed _ _).trans left⟩
  | @error reason after left =>
      cases reason with
      | failure cause =>
          exact ⟨Prod.ext rfl (Console.note_fed _ _ _), (Console.note_feed _ _).trans left⟩
      | undefinedRemainder | outOfSteps => exact ⟨rfl, left⟩

/-- How many lines a run reads. -/
def reads (steps : Nat) (strict : Bool) (tokens : List Token) (console : Console) : Nat :=
  (Plan.statements steps).reads (initial strict tokens console)

/-- A run goes the same way on a feed that gives the same lines at its reads. -/
theorem run_fed {steps : Nat} {strict : Bool} {tokens : List Token}
    {console : Console} {feed : Feed}
    (agree : ∀ index < reads steps strict tokens console, feed.line index =
      console.feed.line index) :
    run steps strict tokens (console.fed feed) =
      ((run steps strict tokens console).1,
        (run steps strict tokens console).2.fed
          (feed.skip (reads steps strict tokens console))) ∧
    (run steps strict tokens console).2.feed =
      console.feed.skip (reads steps strict tokens console) := by
  rw [← initial_feed strict tokens console] at agree ⊢
  rw [run_eq_conclude, run_eq_conclude, initial_fed]
  exact conclude_of_fed ((Plan.statements steps).run_fed _ feed agree)

/-- **A run depends on the lines that it reads, and on no others.** If a run reads a number of
lines, then on every list of lines that gives the same lines at these reads the run comes to the
same ending and the same console, and reads as many lines; so empty lines at the end of the
input change nothing. The number of lines is the number of statements that ask for a line, and
at the begin of every statement all lines have been read that were asked for before. -/
theorem run_depends_on_lines_read (steps : Nat) (strict : Bool) (tokens : List Token)
    (console : Console) (count : Nat)
    (counted : (run steps strict tokens console).2.feed.taken = console.feed.taken + count) :
    (∀ lines : List Text,
      (∀ index < count, lines[index]?.getD "" = console.feed.lines[index]?.getD "") →
        run steps strict tokens (console.fed ⟨lines, console.feed.taken⟩) =
          ((run steps strict tokens console).1,
            (run steps strict tokens console).2.fed
              ⟨lines.drop count, console.feed.taken + count⟩)) ∧
    (∀ more : Nat,
      run steps strict tokens (console.fed
          ⟨console.feed.lines ++ List.replicate more ("" : Text), console.feed.taken⟩) =
        ((run steps strict tokens console).1, (run steps strict tokens console).2.fed
          ⟨(console.feed.lines ++ List.replicate more ("" : Text)).drop count,
            console.feed.taken + count⟩)) ∧
    count = (history steps strict tokens console).countP Moment.asks ∧
    ∀ earlier later start,
      history steps strict tokens console = earlier ++ ⟨.beginStatement, start⟩ :: later →
      start.console.feed.taken = console.feed.taken + earlier.countP Moment.asks := by
  have isCount : reads steps strict tokens console = count := by
    have left :=
      (run_fed fun index _ => rfl : _ ∧ (run steps strict tokens console).2.feed = _).2
    rw [left] at counted
    exact Nat.add_left_cancel counted
  have same : ∀ lines : List Text,
      (∀ index < count, lines[index]?.getD "" = console.feed.lines[index]?.getD "") →
        run steps strict tokens (console.fed ⟨lines, console.feed.taken⟩) =
          ((run steps strict tokens console).1,
            (run steps strict tokens console).2.fed ⟨lines.drop count,
              console.feed.taken + count⟩) := by
    intro lines agree
    rw [← isCount] at agree ⊢
    exact (run_fed agree).1
  have accounts := Plan.statements_keepsAccounts steps (initial strict tokens console)
  refine ⟨same, fun more => same _ fun index _ => ?_, ?_, fun earlier later start parts => ?_⟩
  · exact Feed.line_append_empty console.feed.lines console.feed.taken more index
  · have ends := accounts.ends
    rw [Plan.final_feed] at ends
    rw [← isCount]
    exact Nat.add_left_cancel ends
  · have begins := accounts.begins parts
    rwa [initial_feed] at begins

/-- A program that asks for numbers as long as the last one is positive. -/
def askingProgram : List Stmt :=
  let number (n : Int64) : Expr (.chain .sum) := .single (.single (.literal (.int n)))
  [.act (.declare "x" (.single (.uncompared (number 1)))),
    .loop (.single (.compare (.single (.single (.var "x"))) .gt (number 0)))
      [.act (.input "x")],
    .act (.print (.single (.uncompared (.single (.single (.var "x"))))))]

/-- A console that gives `2`, an empty line and `3`. -/
def askingConsole : Console := { feed := ⟨["2", "", "3"], 0⟩ }

/-- The program reads two lines of the console, because the empty one is no number. So this one
may as well be the end of the input. -/
theorem run_depends_on_lines_read_asking :
    (run 20 false (Stmt.tokens askingProgram) askingConsole).2.feed.taken =
      askingConsole.feed.taken + 2 ∧
    run 20 false (Stmt.tokens askingProgram) (askingConsole.fed ⟨["2"], 0⟩) =
      ((run 20 false (Stmt.tokens askingProgram) askingConsole).1,
        (run 20 false (Stmt.tokens askingProgram) askingConsole).2.fed ⟨[], 2⟩) ∧
    (history 20 false (Stmt.tokens askingProgram) askingConsole).countP Moment.asks = 2 := by
  have counted : (run 20 false (Stmt.tokens askingProgram) askingConsole).2.feed.taken =
      askingConsole.feed.taken + 2 := by
    decide +kernel
  obtain ⟨same, -, isCount, -⟩ :=
    run_depends_on_lines_read 20 false (Stmt.tokens askingProgram) askingConsole 2 counted
  exact ⟨counted, same ["2"] (by decide), isCount.symm⟩

end Program

end ToonScript
