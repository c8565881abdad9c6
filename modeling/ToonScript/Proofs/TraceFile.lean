import ToonScript.Machine.TraceFile
import ToonScript.Proofs.Classification
import ToonScript.Proofs.Reading
import ToonScript.Proofs.Strictness
import ToonScript.Proofs.Verbosity

/-!
# Tracing into a file

A run whose trace goes to a file does what it does with a trace that takes every event, up to
the first message that has no encoding. If there is no such message, both runs are the same;
otherwise the run is left at this event, with the trace, the lines and the input that it has at
that moment (`Program.runToFile_filed`).

Messages are made of fixed words and of the lexemes of the program. So the tokens of a source
text never bring a run to such an event (`Program.runToFile_of_encodable`). Only a dump can,
because a data file can write a lone surrogate.

`Filed` compares the two ways of a computation, and is put together from the deeds as the
computation is.
-/

set_option autoImplicit false

namespace ToonScript

/-! ## With and without a file -/

/-- A later console: events were kept since, lines written and lines read. -/
structure Console.Leads (console after : Console) (events : List Event) : Prop where
  trace : after.trace.toList = console.trace.toList ++ events
  output : console.output.toList <+: after.output.toList
  feed : ∃ count, after.feed = console.feed.skip count

namespace Console

variable {console middle after : Console} {events more : List Event}

theorem Leads.refl (console : Console) : console.Leads console [] :=
  ⟨(List.append_nil _).symm, List.prefix_rfl, 0, rfl⟩

theorem Leads.trans (first : console.Leads middle events) (second : middle.Leads after more) :
    console.Leads after (events ++ more) := by
  refine ⟨?_, first.output.trans second.output, ?_⟩
  · rw [second.trace, first.trace, List.append_assoc]
  · obtain ⟨count, fed⟩ := first.feed
    obtain ⟨count', fed'⟩ := second.feed
    exact ⟨count + count', by rw [fed', fed, Feed.skip_skip]⟩

/-- The event itself if it is kept. -/
def kept (console : Console) (event : Event) : List Event :=
  if event.level ≤ console.verbosity then [event] else []

theorem leads_note (console : Console) (event : Event) :
    console.Leads (console.note event) (console.kept event) := by
  unfold note kept
  split
  · exact ⟨Array.toList_push, List.prefix_rfl, 0, rfl⟩
  · exact .refl console

end Console

/-- What comes of a computation whose trace goes to a file, where it has a result and leads from
one console to another if the trace takes every event. If all messages that it leaves have an
encoding, it has the same result. Otherwise it is left at the first that has none, on the
console before it, from where it would have gone on. -/
inductive Filed {α : Type} (console after : Console) (result : α) : Filing α → Prop where
  | whole {events : List Event} (leads : console.Leads after events)
      (legible : ∀ event ∈ events, event.message.encodable) :
      Filed console after result (.ok result)
  | cut {event : Event} {left : Console} {earlier later : List Event}
      (leads : console.Leads left earlier)
      (legible : ∀ event ∈ earlier, event.message.encodable)
      (illegible : event.message.encodable = false)
      (goesOn : left.Leads after (event :: later)) :
      Filed console after result (.error (event, left))

namespace Filed

variable {α β : Type} {console middle after : Console}

theorem pure (result : α) : Filed console console result (.ok result) :=
  .whole (.refl console) (List.forall_mem_nil _)

theorem leads {result : α} {filed : Filing α} (compares : Filed console after result filed) :
    ∃ events, console.Leads after events := by
  cases compares with
  | whole leads _ => exact ⟨_, leads⟩
  | cut leads _ _ goesOn => exact ⟨_, leads.trans goesOn⟩

/-- The file is asked before an event. -/
theorem ask {event : Event} {result : α} (leads : console.Leads after (console.kept event)) :
    Filed console after result
      (if console.admits event then .ok result else .error (event, console)) := by
  by_cases kept : event.level ≤ console.verbosity
  · rw [Console.kept, if_pos kept] at leads
    have asked : console.admits event = event.message.encodable := by
      rw [Console.admits, decide_eq_false (Nat.not_lt_of_le kept), Bool.false_or]
    rw [asked]
    cases legible : event.message.encodable with
    | true =>
        refine .whole leads fun other member => ?_
        rwa [List.mem_singleton.mp member]
    | false => exact .cut (.refl console) (List.forall_mem_nil _) legible leads
  · rw [Console.kept, if_neg kept] at leads
    have admitted : console.admits event = true := by
      rw [Console.admits, decide_eq_true (Nat.lt_of_not_le kept), Bool.true_or]
    rw [if_pos admitted]
    exact .whole leads (List.forall_mem_nil _)

theorem note (console : Console) (event : Event) :
    Filed console (console.note event) (console.note event) (console.file event) :=
  ask (console.leads_note event)

theorem bind {first : Filing α} {given : α} {next : α → Filing β} {result : β}
    (compares : Filed console middle given first)
    (comparesNext : Filed middle after result (next given)) :
    Filed console after result (first >>= next) := by
  cases compares with
  | @whole events leads legible =>
      show Filed console after result (next given)
      generalize next given = filed at comparesNext
      cases comparesNext with
      | whole leadsNext legibleNext =>
          refine .whole (leads.trans leadsNext) fun event member => ?_
          exact (List.mem_append.mp member).elim (legible event) (legibleNext event)
      | cut leadsNext legibleNext illegible goesOn =>
          refine .cut (leads.trans leadsNext) (fun event member => ?_) illegible goesOn
          exact (List.mem_append.mp member).elim (legible event) (legibleNext event)
  | cut leads legible illegible goesOn =>
      obtain ⟨events, leadsNext⟩ := comparesNext.leads
      exact .cut leads legible illegible (goesOn.trans leadsNext)

end Filed

/-! ## Deeds and plans -/

/-- A deed keeps the event that it leaves, and no other. -/
theorem Moment.leads (moment : Moment) :
    moment.machine.console.Leads moment.next.console
      ((moment.deed.event? moment.machine).toList.flatMap moment.machine.console.kept) := by
  have effect := moment.effect
  obtain ⟨deed, machine⟩ := moment
  generalize Moment.next ⟨deed, machine⟩ = after at effect ⊢
  dsimp only at effect ⊢
  cases effect with
  | moved isMove =>
      -- A deed that only moves leaves no event; the others are told apart by what they are.
      cases deed <;> first | exact .refl _ | cases isMove
  | declared | redeclared | returned | broke | continued | settled => exact .refl _
  | assigned agreed =>
      simp only [Deed.event?, agreed]
      exact .refl _
  | mismatched differed =>
      simp only [Deed.event?, differed, Option.map_some, Option.toList_some,
        List.flatMap_singleton]
      exact machine.console.leads_note _
  | refused refused =>
      simp only [Deed.event?, refused]
      exact .refl _
  | took =>
      exact ⟨(List.append_nil _).symm, List.prefix_rfl, 1,
        congrArg Prod.snd machine.console.feed.next_eq⟩
  | wrote =>
      refine ⟨(List.append_nil _).symm, ?_, 0, rfl⟩
      rw [Console.write, Array.toList_push]
      exact List.prefix_append _ _
  | noted =>
      simp only [Deed.event?, Option.toList_some, List.flatMap_singleton]
      exact machine.console.leads_note _

theorem Deed.performToFile_filed (deed : Deed) (machine : Machine) :
    Filed machine.console (Moment.mk deed machine).next.console (deed.perform machine)
      (deed.performToFile machine) := by
  have leads := Moment.leads ⟨deed, machine⟩
  dsimp only at leads
  unfold performToFile
  cases left : deed.event? machine with
  | none =>
      rw [left] at leads
      exact .whole leads (List.forall_mem_nil _)
  | some event =>
      rw [left, Option.toList_some, List.flatMap_singleton] at leads
      exact .ask leads

namespace Plan

variable {α : Type}

/-- **A plan is carried out alike with its trace in a file, up to the first message that has no
encoding.** -/
theorem runToFile_filed (plan : Plan α) (machine : Machine) :
    Filed machine.console (plan.final machine).console (plan.run machine)
      (plan.runToFile machine) := by
  induction plan generalizing machine with
  | done result => exact .pure _
  | stop reason => exact .pure _
  | act deed next ih =>
      have first := deed.performToFile_filed machine
      rw [runToFile]
      refine first.bind ?_
      cases performed : deed.perform machine with
      | ok result after =>
          rw [Moment.next_of_ok performed, final_act_of_ok performed, run_act,
            bind_of_ok performed]
          exact ih result after
      | error reason after =>
          rw [Moment.next_of_error performed, final_act_of_error performed, run_act,
            bind_of_error performed]
          exact .pure _

end Plan

namespace Program

theorem announceToFile_filed (tokens : List Token) (console : Console) :
    Filed console (announce tokens console) (announce tokens console)
      (announceToFile tokens console) := by
  refine (Filed.note console _).bind ?_
  rw [announce]
  generalize console.note (.started tokens.length) = begun
  induction tokens generalizing begun with
  | nil => exact .pure begun
  | cons token tokens ih =>
      rw [List.foldlM_cons]
      exact (Filed.note begun _).bind (ih _)

theorem concludeToFile_filed (plan : Plan Unit) (machine : Machine) :
    Filed (plan.final machine).console (conclude (plan.run machine)).2
      (conclude (plan.run machine)) (concludeToFile (plan.run machine)) := by
  cases carried : plan.run machine with
  | ok result after =>
      rw [Plan.final_of_ok carried]
      exact (Filed.note after.console _).bind (.pure _)
  | error reason after =>
      rw [Plan.final_of_error carried]
      cases reason with
      | failure cause => exact (Filed.note after.console _).bind (.pure _)
      | undefinedRemainder | outOfSteps => exact .pure _

/-- **A run goes alike with its trace in a file, up to the first message that has no encoding.**
-/
theorem runToFile_filed (steps : Nat) (strict : Bool) (tokens : List Token)
    (console : Console) :
    Filed console (run steps strict tokens console).2 (run steps strict tokens console)
      (runToFile steps strict tokens console) := by
  rw [run_eq_conclude]
  refine (announceToFile_filed tokens console).bind ?_
  refine ((Plan.statements steps).runToFile_filed (initial strict tokens console)).bind ?_
  exact concludeToFile_filed _ _

end Program

/-! ## Programs that have an encoding -/

/-- What is made of fixed words and of lexemes that have an encoding has one. -/
theorem Worded.encodable {tokens : List Token} {text : Text}
    (legible : ∀ token ∈ tokens, token.encodable) (worded : Worded tokens text) :
    text.encodable := by
  induction worded with
  | words s => exact Text.encodable_ofString s
  | lexeme member => exact (Bool.and_eq_true_iff.mp (legible _ member)).1
  | append _ _ ih ihMore => rw [Text.encodable_append, ih, ihMore, Bool.and_self]

theorem Token.describe_encodable {token : Token} (legible : token.encodable) :
    token.describe.encodable := by
  obtain ⟨lexeme, literal⟩ := Bool.and_eq_true_iff.mp legible
  have value : ∀ value, token.literal = some value → value.text.encodable := by
    intro value carried
    rw [carried] at literal
    exact literal
  rw [describe]
  cases carried : token.literal with
  | none => simp [lexeme]
  | some carriedValue => simp [lexeme, value _ carried]

theorem Failure.text_encodable {cause : Failure} (legible : cause.message.encodable) :
    cause.text.encodable := by
  rw [text]
  cases cause.location? with
  | none => simp [legible]
  | some location => simp [legible]

/-- What a stop tells can be written. -/
theorem Stop.Tells.text_encodable {tokens rest : List Token} {bindings : Bindings}
    {cause : Failure} (legible : ∀ token ∈ tokens, token.encodable)
    (tells : Stop.Tells tokens bindings rest (.failure cause)) :
    cause.text.encodable := by
  refine Failure.text_encodable ?_
  cases cause with
  | structural problem token =>
      cases token with
      | none => exact tells.1.encodable legible
      | some token =>
          have worded := tells.1.encodable legible
          rw [Failure.message]
          split
          · exact worded
          · rw [Text.encodable_append, worded, Text.encodable_ofString, Bool.and_self]
  | _ => exact Worded.encodable legible tells

theorem Console.admits_of_encodable {event : Event} (legible : event.message.encodable)
    (console : Console) : console.admits event := by
  rw [admits, legible, Bool.or_true]

theorem Console.file_of_encodable {event : Event} (legible : event.message.encodable)
    (console : Console) : console.file event = .ok (console.note event) :=
  if_pos (console.admits_of_encodable legible)

/-- A plan whose events can all be written is carried out as without a file. -/
theorem Plan.runToFile_eq {α : Type} (plan : Plan α) (machine : Machine)
    (legible : ∀ moment ∈ plan.history machine, ∀ event ∈ moment.deed.event? moment.machine,
      event.message.encodable) :
    plan.runToFile machine = .ok (plan.run machine) := by
  induction plan generalizing machine with
  | done result => rfl
  | stop reason => rfl
  | act deed next ih =>
      have first : deed.performToFile machine = .ok (deed.perform machine) := by
        have begun : Moment.mk deed machine ∈ (act deed next).history machine := by
          rw [history]
          exact List.mem_cons_self
        unfold Deed.performToFile
        cases left : deed.event? machine with
        | none => rfl
        | some event =>
            exact if_pos (machine.console.admits_of_encodable (legible _ begun event left))
      rw [runToFile, first, run_act]
      cases performed : deed.perform machine with
      | ok result after =>
          rw [bind_of_ok performed]
          refine ih result after fun moment member => legible moment ?_
          rw [history_act_of_ok performed]
          exact List.mem_cons_of_mem _ member
      | error reason after =>
          rw [bind_of_error performed]
          rfl

/-- The events of a deed that uses words of the program are made of such words. -/
theorem Deed.event?_worded {tokens : List Token} {deed : Deed}
    (allowed : (orderly tokens).Allows deed) {machine : Machine} {event : Event}
    (left : deed.event? machine = some event) : Worded tokens event.message := by
  cases deed with
  | note =>
      cases left
      exact allowed
  | assign name value =>
      rw [event?] at left
      split at left
      · next assigned =>
          obtain ⟨mismatch, rfl, rfl⟩ := Option.map_eq_some_iff.mp left
          obtain ⟨old, -, differs⟩ := (Environment.assign_eq_ok assigned).known
          split at differs
          · cases differs
          · cases differs
            exact (Worded.words _).append (allowed.1.mismatch _ _)
      · cases left
  | _ => cases left

namespace Program

variable {tokens : List Token}

theorem announceToFile_of_encodable (legible : ∀ token ∈ tokens, token.encodable)
    (console : Console) : announceToFile tokens console = .ok (announce tokens console) := by
  have tokenwise : ∀ begun : Console,
      tokens.foldlM (fun console token => console.file (.token token)) begun =
      .ok (tokens.foldl (fun console token => console.note (.token token)) begun) := by
    induction tokens with
    | nil => exact fun begun => rfl
    | cons token tokens ih =>
        intro begun
        have written : (Event.token token).message.encodable := by
          have described := Token.describe_encodable (legible token List.mem_cons_self)
          rw [Event.message, Text.encodable_append, described, Text.encodable_ofString,
            Bool.and_self]
        rw [List.foldlM_cons, begun.file_of_encodable written]
        exact ih (fun token member => legible token (List.mem_cons_of_mem _ member)) _
  have started : (Event.started tokens.length).message.encodable := Text.encodable_ofString _
  rw [announceToFile, console.file_of_encodable started]
  exact tokenwise _

theorem concludeToFile_of_encodable {result : EStateM.Result Stop Machine Unit}
    (legible : ∀ cause after, result = .error (.failure cause) after → cause.text.encodable) :
    concludeToFile result = .ok (conclude result) := by
  cases result with
  | ok u machine =>
      have written : Event.finished.message.encodable := Text.encodable_ofString _
      rw [concludeToFile, machine.console.file_of_encodable written]
      rfl
  | error reason machine =>
      cases reason with
      | failure cause =>
          have written : (Event.failed cause).message.encodable := by
            rw [Event.message, Text.encodable_append, legible cause machine rfl,
              Text.encodable_ofString, Bool.and_self]
          rw [concludeToFile, machine.console.file_of_encodable written]
          rfl
      | undefinedRemainder | outOfSteps => rfl

/-- **A program whose tokens have an encoding runs alike with its trace in a file.** -/
theorem runToFile_of_encodable (steps : Nat) (strict : Bool)
    (legible : ∀ token ∈ tokens, token.encodable) (console : Console) :
    runToFile steps strict tokens console = .ok (run steps strict tokens console) := by
  have keeps := (orderly_lawful tokens).statements steps
  have start : (initial strict tokens console).cursor.rest <:+ tokens := List.suffix_rfl
  have carriedOut := (Plan.statements steps).runToFile_eq (initial strict tokens console)
    fun moment member event left =>
      (Deed.event?_worded (keeps.moments _ start moment member).2 left).encodable legible
  have concluded := concludeToFile_of_encodable fun cause after stopped =>
    (keeps.stops _ start _ _ stopped).tells.text_encodable legible
  rw [runToFile, announceToFile_of_encodable legible, run_eq_conclude, ← concluded]
  show ((Plan.statements steps).runToFile (initial strict tokens console) >>= concludeToFile) = _
  rw [carriedOut]
  rfl

/-! ## Verbosity -/

variable {steps : Nat} {strict : Bool} {feed : Feed} {output : Array Text} {verbosity : Nat}

/-- With a trace that takes every event, a quieter run does what a louder one does. -/
theorem run_quieter_of_le (steps : Nat) (strict : Bool) (tokens : List Token) (feed : Feed)
    (output : Array Text) {low high : Nat} (below : low ≤ high) :
    run steps strict tokens { feed, output, verbosity := low } =
      ((run steps strict tokens { feed, output, verbosity := high }).1,
        (run steps strict tokens { feed, output, verbosity := high }).2.quieter low) :=
  @run_quieter low { feed, output, verbosity := high } below steps strict tokens

/-- A run on a fresh trace whose messages can all be written does the same with its trace in a
file. -/
theorem runToFile_of_legible
    (legible : ∀ event ∈ (run steps strict tokens { feed, output, verbosity }).2.trace,
      event.message.encodable) :
    runToFile steps strict tokens { feed, output, verbosity } =
      .ok (run steps strict tokens { feed, output, verbosity }) := by
  have compares := runToFile_filed steps strict tokens { feed, output, verbosity }
  generalize runToFile steps strict tokens { feed, output, verbosity } = filed at compares
  cases compares with
  | whole => rfl
  | @cut event left earlier later _ _ illegible goesOn =>
      have member : event ∈ (run steps strict tokens { feed, output, verbosity }).2.trace := by
        rw [← Array.mem_toList_iff, goesOn.trace]
        exact List.mem_append_right _ List.mem_cons_self
      rw [legible event member] at illegible
      cases illegible

/-- A run on a fresh trace is left at the first message that cannot be written, if its trace
goes to a file. -/
theorem runToFile_of_illegible {earlier later : List Event} {event : Event}
    (parts : (run steps strict tokens { feed, output, verbosity }).2.trace.toList =
      earlier ++ event :: later)
    (legible : ∀ other ∈ earlier, other.message.encodable)
    (illegible : event.message.encodable = false) :
    ∃ left, runToFile steps strict tokens { feed, output, verbosity } = .error (event, left) ∧
      left.trace.toList = earlier ∧
      left.Leads (run steps strict tokens { feed, output, verbosity }).2 (event :: later) := by
  have compares := runToFile_filed steps strict tokens { feed, output, verbosity }
  generalize runToFile steps strict tokens { feed, output, verbosity } = filed at compares
  cases compares with
  | @whole events leads written =>
      have member : event ∈ events := by
        have same : events = earlier ++ event :: later := leads.trace.symm.trans parts
        exact same ▸ List.mem_append_right _ List.mem_cons_self
      rw [written event member] at illegible
      cases illegible
  | @cut first left before behind leads written unwritten goesOn =>
      have fresh : left.trace.toList = before := leads.trace
      rw [goesOn.trace, fresh] at parts
      -- In front of the first message that cannot be written stands what can be written.
      have sameFront : before = earlier := by
        have front := congrArg (List.takeWhile (·.message.encodable)) parts
        rwa [List.takeWhile_append_of_pos written,
          List.takeWhile_cons_of_neg (by simp [unwritten]), List.append_nil,
          List.takeWhile_append_of_pos legible,
          List.takeWhile_cons_of_neg (by simp [illegible]), List.append_nil] at front
      subst sameFront
      obtain ⟨rfl, rfl⟩ := List.cons.inj (List.append_cancel_left parts)
      exact ⟨left, rfl, fresh, goesOn⟩

/-- **Tracing interferes only where the trace cannot be written.** Of two runs that differ in
their verbosity only, both come to the same ending, write the same lines and take the same lines
from the feed. The trace of the quieter run is the other trace without the events above its
verbosity, so its messages are among those of the louder run, in the same order; with verbosity
zero there are none.

This holds of traces that take every event. If the traces go to files, it holds as long as the
messages of the louder run have an encoding, and they do if the tokens have one. Otherwise the
louder run is left at the first message that has none: it comes to no ending, its trace ends
before this message, and it may have written and read less. -/
theorem tracing_interferes_only_unwritten (steps : Nat) (strict : Bool)
    (tokens : List Token) (feed : Feed) (output : Array Text) {low high : Nat}
    (below : low ≤ high) :
    let quiet := run steps strict tokens { feed, output, verbosity := low }
    let loud := run steps strict tokens { feed, output, verbosity := high }
    (quiet.1 = loud.1 ∧ quiet.2.output = loud.2.output ∧ quiet.2.feed = loud.2.feed ∧
      quiet.2.trace = loud.2.trace.filter (·.level ≤ low) ∧
      (quiet.2.trace.toList.map Event.message).Sublist (loud.2.trace.toList.map Event.message) ∧
      (low = 0 → quiet.2.trace = #[])) ∧
    ((∀ event ∈ loud.2.trace, event.message.encodable) →
      runToFile steps strict tokens { feed, output, verbosity := low } = .ok quiet ∧
        runToFile steps strict tokens { feed, output, verbosity := high } = .ok loud) ∧
    ((∀ token ∈ tokens, token.encodable) → ∀ event ∈ loud.2.trace, event.message.encodable) ∧
    ∀ earlier event later, loud.2.trace.toList = earlier ++ event :: later →
      (∀ other ∈ earlier, other.message.encodable) → event.message.encodable = false →
      ∃ left, runToFile steps strict tokens { feed, output, verbosity := high } =
        .error (event, left) ∧
        left.trace.toList = earlier ∧ left.output.toList <+: loud.2.output.toList ∧
        ∃ count, loud.2.feed = left.feed.skip count := by
  intro quiet loud
  have quieter : quiet = (loud.1, loud.2.quieter low) :=
    run_quieter_of_le steps strict tokens feed output below
  have fewer : quiet.2.trace = loud.2.trace.filter (·.level ≤ low) := by
    rw [quieter, Console.quieter]
  refine ⟨⟨by rw [quieter], by rw [quieter, Console.quieter], by rw [quieter, Console.quieter],
    fewer, ?_, ?_⟩, ?_, ?_, ?_⟩
  · refine List.Sublist.map _ ?_
    rw [fewer, Array.toList_filter]
    exact List.filter_sublist
  · rintro rfl
    rw [fewer]
    exact Array.filter_eq_empty_iff.mpr fun event _ => by
      simpa using Nat.ne_of_gt event.level_pos
  · intro legible
    refine ⟨runToFile_of_legible fun event member => legible event ?_,
      runToFile_of_legible legible⟩
    exact (Array.mem_filter.mp (fewer ▸ member)).1
  · intro encodable event member
    have compares := runToFile_filed steps strict tokens { feed, output, verbosity := high }
    rw [runToFile_of_encodable steps strict encodable] at compares
    cases compares with
    | whole leads legible =>
        refine legible event ?_
        have kept := Array.mem_toList_iff.mpr member
        rwa [leads.trace] at kept
  · intro earlier event later parts legible illegible
    obtain ⟨left, stopped, before, leads⟩ := runToFile_of_illegible parts legible illegible
    exact ⟨left, stopped, before, leads.output, leads.feed⟩

/-- A name that is a surrogate without its partner. -/
def surrogateName : Text := ⟨[.lone ⟨0, Nat.zero_lt_succ 2047⟩]⟩

/-- A program that prints a number, declares a variable of this name and prints another number.
-/
def surrogateTokens : List Token :=
  List.map Symbol.token
    [.sign .marker, .sign .printKw, .sign .groupOpen, .literal (.int 1), .sign .groupClose,
      .sign .marker, .sign .marker, .sign .varKw, .name surrogateName, .sign .assign,
      .literal (.int 2), .sign .marker, .sign .marker, .sign .printKw, .sign .groupOpen,
      .literal (.int 3), .sign .groupClose, .sign .marker]

/-- The trace of the retyping program can be written with verbosity two, and so it goes to a
file as with verbosity one. With the surrogate the run is left at the declaration, before the
second number is printed. -/
theorem tracing_interferes_only_unwritten_surrogate :
    1 ≤ 2 ∧
    ((run 6 false retypingTokens { verbosity := 1 }).1 =
      (run 6 false retypingTokens { verbosity := 2 }).1 ∧
      runToFile 6 false retypingTokens { verbosity := 1 } =
        .ok (run 6 false retypingTokens { verbosity := 1 }) ∧
      runToFile 6 false retypingTokens { verbosity := 2 } =
        .ok (run 6 false retypingTokens { verbosity := 2 })) ∧
    (run 6 false surrogateTokens { verbosity := 1 }).1 =
      (run 6 false surrogateTokens { verbosity := 2 }).1 ∧
    ∃ left, runToFile 6 false surrogateTokens { verbosity := 2 } =
      .error (.declared surrogateName (.int 2), left) ∧ left.trace.toList = [.started 18] ∧
      left.output.toList <+:
        (run 6 false surrogateTokens { verbosity := 2 }).2.output.toList := by
  obtain ⟨⟨sameEnding, -⟩, toFile, legible, -⟩ :=
    tracing_interferes_only_unwritten 6 false retypingTokens ⟨[], 0⟩ #[] (show 1 ≤ 2 by decide)
  obtain ⟨⟨sameSurrogate, -⟩, -, -, cut⟩ :=
    tracing_interferes_only_unwritten 6 false surrogateTokens ⟨[], 0⟩ #[] (show 1 ≤ 2 by decide)
  have traced : (run 6 false surrogateTokens { verbosity := 2 }).2.trace.toList =
      [.started 18] ++ .declared surrogateName (.int 2) :: [.finished] := by decide +kernel
  obtain ⟨left, stopped, before, written, -⟩ :=
    cut _ _ _ traced (by decide +kernel) (by decide +kernel)
  exact ⟨by decide, ⟨sameEnding, toFile (legible (by decide +kernel))⟩, sameSurrogate, left,
    stopped, before, written⟩

/-- With verbosity one the program runs to its end and prints both numbers. With verbosity two
the run is left behind the first one. So it is not the case that runs with traces in files do
the same whatever their verbosity is. -/
theorem trace_file_interferes :
    (∃ report console, runToFile 6 false surrogateTokens { verbosity := 1 } =
      .ok (.reported report, console) ∧
      report.succeeded = true ∧ console.output = (#["1", "3"] : Array Text)) ∧
    (∃ left, runToFile 6 false surrogateTokens { verbosity := 2 } =
      .error (.declared surrogateName (.int 2), left) ∧ left.output = (#["1"] : Array Text)) ∧
    ¬ ∀ (steps : Nat) (strict : Bool) (tokens : List Token) (feed : Feed)
      (low high : Nat), low ≤ high →
      (runToFile steps strict tokens { feed, verbosity := low }).toOption.map Prod.fst =
        (runToFile steps strict tokens { feed, verbosity := high }).toOption.map Prod.fst := by
  have quiet : runToFile 6 false surrogateTokens { verbosity := 1 } =
      .ok (.reported ⟨none, none, [(surrogateName, .int 2)], []⟩,
        { output := #["1", "3"], verbosity := 1, trace := #[.started 18, .finished] }) := by
    decide +kernel
  have loud : runToFile 6 false surrogateTokens { verbosity := 2 } =
      .error (.declared surrogateName (.int 2),
        { output := #["1"], verbosity := 2, trace := #[.started 18] }) := by
    decide +kernel
  refine ⟨⟨_, _, quiet, rfl, rfl⟩, ⟨_, loud, rfl⟩, fun same => ?_⟩
  have equal := same 6 false surrogateTokens ⟨[], 0⟩ 1 2 (by decide)
  rw [quiet, loud] at equal
  cases equal

end Program

end ToonScript
