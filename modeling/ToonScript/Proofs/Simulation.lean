import ToonScript.Proofs.Evaluation
import ToonScript.Proofs.Primitive

/-!
# Two runs side by side

Many facts compare two runs: on a program and on a longer one, with one budget and with a larger
one, on one console and on another. A `Likeness` says what the two runs may differ in, namely
the place and the console, and which stops of the first run say nothing about the second. It
holds the laws that this needs: how places correspond when a token is passed, an expression is
evaluated or a bracket is closed, and how consoles correspond when they are read, written and
traced.

From these laws the computations of the machine agree, one after the other, up to whole
statements, blocks and loops (`statement_simulates`). The variables, the flags and the returned
value are always the same in both runs, and a machine that has not returned holds no returned
value.

Where the second program goes on behind the end of the first, an expression at the end of the
first may be longer in the second. So two forms of agreement are needed: a loose one, which says
nothing when the first run has come to the end of its tokens, and one without this exception.
Passing a further token turns the first into the second.
-/

set_option autoImplicit false

namespace ToonScript

open Token (Kind)

/-- A machine that has not returned holds no returned value. -/
def Machine.Orderly (machine : Machine) : Prop :=
  machine.flags.returned = false → machine.returnValue = none

/-- Consoles that correspond to each other, also after both have been noted on, written to and
read. -/
structure Echo where
  talk : Console → Console → Prop
  talk_limit : ∀ {console console' : Console}, talk console console' →
    console'.groupLimit = console.groupLimit
  talk_note : ∀ {console console' : Console} (event : Event),
    talk console console' → talk (console.note event) (console'.note event)
  talk_write : ∀ {console console' : Console} (line : Text),
    talk console console' → talk (console.write line) (console'.write line)
  talk_read : ∀ {console console' : Console},
    talk console console' → console'.read.1 = console.read.1 ∧
    talk console.read.2 console'.read.2

/-- Every console corresponds to itself only. -/
def Echo.same : Echo where
  talk := Eq
  talk_limit same := by rw [same]
  talk_note _ same := by rw [same]
  talk_write _ same := by rw [same]
  talk_read same := by rw [same]; exact ⟨rfl, rfl⟩

/-- The consoles correspond the other way round. -/
def Echo.flip (echo : Echo) : Echo where
  talk console console' := echo.talk console' console
  talk_limit talk := (echo.talk_limit talk).symm
  talk_note := echo.talk_note
  talk_write := echo.talk_write
  talk_read talk := ⟨(echo.talk_read talk).1.symm, (echo.talk_read talk).2⟩

/-- What two runs may differ in: the places that correspond to each other, the stops of the
first run that say nothing about the second, and whether the second program may go on where the
first one ends. -/
structure Likeness extends Echo where
  place : Cursor → Cursor → Prop
  forgives : Stop → Prop
  openEnd : Prop
  forgives_outOfSteps : forgives .outOfSteps
  forgives_of_openEnd : openEnd → ∀ stop, forgives stop
  place_nil : ∀ {last : Option Token} {cursor' : Cursor}, place ⟨last, []⟩ cursor' → ¬openEnd →
    cursor'.rest = []
  place_cons : ∀ {last : Option Token} {token : Token} {rest : List Token} {cursor' : Cursor},
    place ⟨last, token :: rest⟩ cursor' →
      ∃ rest', cursor'.rest = token :: rest' ∧ place ⟨some token, rest⟩ ⟨some token, rest'⟩
  evaluate_ok : ∀ {limit : Nat} {bindings : Bindings} {value : Value}
    {cursor cursor' after : Cursor}, place cursor cursor' →
      Expression.evaluate limit bindings cursor = .ok value after →
      (openEnd ∧ after.rest = []) ∨
        ∃ after', Expression.evaluate limit bindings cursor' = .ok value after' ∧
          place after after'
  evaluate_error : ∀ {limit : Nat} {bindings : Bindings} {stop : Stop}
    {cursor cursor' after : Cursor}, place cursor cursor' →
      Expression.evaluate limit bindings cursor = .error stop after →
      forgives stop ∨ ∃ after', Expression.evaluate limit bindings cursor' = .error stop after'
  closing_some : ∀ {opener closer : Kind} {cursor cursor' after : Cursor},
    place cursor cursor' → cursor.closing? opener closer = some after →
      ∃ after', cursor'.closing? opener closer = some after' ∧ place after after'
  closing_none : ∀ {opener closer : Kind} {cursor cursor' : Cursor},
    place cursor cursor' → cursor.closing? opener closer = none →
      openEnd ∨ cursor'.closing? opener closer = none ∧ cursor'.last = cursor.last

namespace Likeness

variable {like : Likeness} {loose : Prop} {α β : Type}

/-! ## Agreement of machines, results and computations -/

/-- The machines of two runs: places and consoles correspond, all else is the same, and the
machines are orderly. -/
inductive Alike (like : Likeness) (machine : Machine) : Machine → Prop where
  | intro {cursor' : Cursor} {console' : Console} (place : like.place machine.cursor cursor')
      (talk : like.talk machine.console console')
      (orderly : machine.Orderly) :
      Alike like machine { machine with cursor := cursor', console := console' }

namespace Alike

variable {machine machine' : Machine}

theorem env_eq (alike : like.Alike machine machine') : machine'.env = machine.env := by
  cases alike
  rfl

theorem flags_eq (alike : like.Alike machine machine') : machine'.flags = machine.flags := by
  cases alike
  rfl

theorem place (alike : like.Alike machine machine') :
    like.place machine.cursor machine'.cursor := by
  cases alike
  assumption

theorem rest_eq_nil (alike : like.Alike machine machine') (ended : machine.cursor.rest = [])
    (closed : ¬like.openEnd) : machine'.cursor.rest = [] := by
  have place := alike.place
  obtain ⟨⟨last, rest⟩, env, flags, returnValue, console⟩ := machine
  obtain rfl : rest = [] := ended
  exact like.place_nil place closed

theorem rest_eq_cons {token : Token} {rest : List Token} (alike : like.Alike machine machine')
    (parts : machine.cursor.rest = token :: rest) :
    ∃ rest', machine'.cursor.rest = token :: rest' ∧
      like.place ⟨some token, rest⟩ ⟨some token, rest'⟩ := by
  have place := alike.place
  obtain ⟨⟨last, _⟩, env, flags, returnValue, console⟩ := machine
  obtain rfl := parts
  exact like.place_cons place

end Alike

/-- The results of two runs. The loose form says nothing when the first run is at the end of its
tokens and the second program may go on there. -/
inductive Agrees (like : Likeness) (loose : Prop) :
    EStateM.Result Stop Machine α → EStateM.Result Stop Machine α → Prop where
  | ok {a : α} {after after' : Machine} (alike : like.Alike after after') :
      Agrees like loose (.ok a after) (.ok a after')
  | error {stop : Stop} {after after' : Machine} (env : after'.env = after.env)
      (talk : like.talk after.console after'.console) :
      Agrees like loose (.error stop after) (.error stop after')
  | forgiven {stop : Stop} {after : Machine} {result' : EStateM.Result Stop Machine α}
      (forgives : like.forgives stop) : Agrees like loose (.error stop after) result'
  | spent {a : α} {after : Machine} {result' : EStateM.Result Stop Machine α} (allowed : loose)
      (openEnd : like.openEnd) (atEnd : after.cursor.rest = []) :
      Agrees like loose (.ok a after) result'

theorem Agrees.loosen {result result' : EStateM.Result Stop Machine α}
    (agrees : like.Agrees False result result') :
    like.Agrees True result result' := by
  cases agrees with
  | ok alike => exact .ok alike
  | error env talk => exact .error env talk
  | forgiven forgives => exact .forgiven forgives
  | spent impossible => exact impossible.elim

/-- Two computations agree on machines that are alike. -/
def Simulates (like : Likeness) (loose : Prop) (computation computation' : Exec α) : Prop :=
  ∀ machine machine', like.Alike machine machine' →
    like.Agrees loose (computation machine) (computation' machine')

/-- A computation that needs a token ahead. -/
def Demands (computation : Exec α) : Prop :=
  ∀ machine, machine.cursor.rest = [] → ∃ stop after, computation machine = .error stop after

theorem Demands.bind {first : Exec α} {next : α → Exec β} (demands : Demands first) :
    Demands (first >>= next) := by
  intro machine atEnd
  obtain ⟨stop, after, stopped⟩ := demands machine atEnd
  exact ⟨stop, after, bind_of_error stopped⟩

theorem Demands.expect (kind : Kind) (context : Text) : Demands (Exec.expect kind context) := by
  rintro ⟨⟨last, rest⟩, env, flags, returnValue, console⟩ rfl
  exact ⟨_, _, rfl⟩

namespace Simulates

theorem loosen {computation computation' : Exec α}
    (simulates : like.Simulates False computation computation') :
    like.Simulates True computation computation' :=
  fun machine machine' alike => (simulates machine machine' alike).loosen

section Sequences

variable {first first' : Exec α} {next next' : α → Exec β}

/-- Two sequences agree if their parts do. Where the agreement of the first parts is loose, the
second part of the first run has to agree with everything once it is at the end of its tokens.
-/
theorem andThen {allowed : Prop} (simulates : like.Simulates allowed first first')
    (simulatesNext : ∀ a, like.Simulates loose (next a) (next' a))
    (atTheEnd : allowed → like.openEnd → ∀ a after, after.cursor.rest = [] →
      ∀ result', like.Agrees loose (next a after) result') :
    like.Simulates loose (first >>= next) (first' >>= next') := by
  intro machine machine' alike
  have agrees := simulates machine machine' alike
  generalize begun : first machine = result at agrees
  generalize begun' : first' machine' = result' at agrees
  cases agrees with
  | ok alikeAfter =>
      rw [bind_of_ok begun, bind_of_ok begun']
      exact simulatesNext _ _ _ alikeAfter
  | error env talk =>
      rw [bind_of_error begun, bind_of_error begun']
      exact .error env talk
  | forgiven forgives =>
      rw [bind_of_error begun]
      exact .forgiven forgives
  | spent allowed openEnd atEnd =>
      rw [bind_of_ok begun]
      exact atTheEnd allowed openEnd _ _ atEnd _

theorem bind (simulates : like.Simulates False first first')
    (simulatesNext : ∀ a, like.Simulates loose (next a) (next' a)) :
    like.Simulates loose (first >>= next) (first' >>= next') :=
  simulates.andThen simulatesNext fun impossible => impossible.elim

/-- Loose agreement is enough in front of a computation that needs a further token. -/
theorem demand (simulates : like.Simulates True first first')
    (simulatesNext : ∀ a, like.Simulates loose (next a) (next' a))
    (demands : ∀ a, Demands (next a)) :
    like.Simulates loose (first >>= next) (first' >>= next') := by
  refine simulates.andThen simulatesNext fun _ openEnd a after atEnd result' => ?_
  obtain ⟨stop, stopped, stops⟩ := demands a after atEnd
  rw [stops]
  exact .forgiven (like.forgives_of_openEnd openEnd stop)

/-- Loose agreement stays loose in front of a computation that does not move the cursor. -/
theorem still (simulates : like.Simulates True first first')
    (simulatesNext : ∀ a, like.Simulates False (next a) (next' a))
    (still : ∀ a, Exec.Still (next a)) :
    like.Simulates True (first >>= next) (first' >>= next') := by
  refine simulates.andThen (fun a => (simulatesNext a).loosen)
    fun _ openEnd a after atEnd result' => ?_
  cases ended : next a after with
  | ok b final =>
      refine .spent trivial openEnd ?_
      rw [still a _ _ _ ended, atEnd]
  | error stop final => exact .forgiven (like.forgives_of_openEnd openEnd stop)

end Sequences

theorem pure (a : α) : like.Simulates loose (pure a : Exec α) (pure a) :=
  fun _ _ alike => .ok alike

theorem throw (stop : Stop) : like.Simulates loose (throw stop : Exec α) (throw stop) := by
  rintro machine _ ⟨place, talk, orderly⟩
  exact .error rfl talk

/-- What is read off the machine may be used as far as it is the same in both runs. -/
theorem get {next next' : Machine → Exec α}
    (simulates : ∀ machine machine', like.Alike machine machine' →
      like.Simulates loose (next machine) (next' machine')) :
    like.Simulates loose (get >>= next) (get >>= next') :=
  fun machine machine' alike => simulates machine machine' alike machine machine' alike

/-! ## Tokens and expressions -/

/-- The results of two scans, in the same two forms. -/
inductive ScanAgrees (like : Likeness) (loose : Prop) :
    EStateM.Result Stop Cursor α → EStateM.Result Stop Cursor α → Prop where
  | ok {a : α} {after after' : Cursor} (place : like.place after after') :
      ScanAgrees like loose (.ok a after) (.ok a after')
  | error {stop : Stop} {after after' : Cursor} :
      ScanAgrees like loose (.error stop after) (.error stop after')
  | forgiven {stop : Stop} {after : Cursor} {result' : EStateM.Result Stop Cursor α}
      (forgives : like.forgives stop) : ScanAgrees like loose (.error stop after) result'
  | spent {a : α} {after : Cursor} {result' : EStateM.Result Stop Cursor α} (allowed : loose)
      (openEnd : like.openEnd) (atEnd : after.rest = []) :
      ScanAgrees like loose (.ok a after) result'

theorem scan {computation computation' : Scan α}
    (agree : ∀ cursor cursor', like.place cursor cursor' →
      ScanAgrees like loose (computation cursor) (computation' cursor')) :
    like.Simulates loose (Exec.scan computation) (Exec.scan computation') := by
  rintro machine _ ⟨place, talk, orderly⟩
  have agrees := agree _ _ place
  generalize scanned : computation machine.cursor = result at agrees
  generalize scanned' : computation' _ = result' at agrees
  cases agrees with
  | ok placeAfter =>
      rw [Exec.scan_of_ok scanned, Exec.scan_of_ok scanned']
      exact .ok (.intro placeAfter talk orderly)
  | error =>
      rw [Exec.scan_of_error scanned, Exec.scan_of_error scanned']
      exact .error rfl talk
  | forgiven forgives =>
      rw [Exec.scan_of_error scanned]
      exact .forgiven forgives
  | spent allowed openEnd atEnd =>
      rw [Exec.scan_of_ok scanned]
      exact .spent allowed openEnd atEnd

/-- A scan that passes one token, or stops for a reason that can be told from the token. -/
theorem scanToken {computation : Scan α} (accept : Token → Except Stop α) (missing : Stop)
    (atEnd : ∀ last, computation ⟨last, []⟩ = .error missing ⟨last, []⟩)
    (onToken : ∀ last token rest, computation ⟨last, token :: rest⟩ =
      match accept token with
      | .ok a => .ok a ⟨some token, rest⟩
      | .error stop => .error stop ⟨last, token :: rest⟩) :
    like.Simulates loose (Exec.scan computation) (Exec.scan computation) := by
  refine scan ?_
  rintro ⟨last, rest⟩ ⟨last', rest'⟩ place
  cases rest with
  | nil =>
      rw [atEnd]
      by_cases openEnd : like.openEnd
      · exact .forgiven (like.forgives_of_openEnd openEnd _)
      · obtain rfl : rest' = [] := like.place_nil place openEnd
        rw [atEnd]
        exact .error
  | cons token rest =>
      obtain ⟨ahead, parts, placeAfter⟩ := like.place_cons place
      obtain rfl : rest' = token :: ahead := parts
      rw [onToken, onToken]
      cases accept token with
      | ok a => exact .ok placeAfter
      | error stop => exact .error

theorem pass : like.Simulates loose Exec.pass Exec.pass :=
  bind (scanToken .ok (.failure (.structural .endOfInput none)) (fun _ => rfl) fun _ _ _ => rfl)
    fun _ => pure ()

theorem scanExpect (kind : Kind) (context : Text) :
    like.Simulates loose (Exec.scan (Scan.expect kind context))
      (Exec.scan (Scan.expect kind context)) := by
  refine scanToken (fun token => if token.kind = kind then .ok token
    else .error (.failure (.structural (.expected kind context) (some token))))
    (.failure (.structural (.expected kind context) none)) (fun _ => rfl) fun last token rest =>
      ?_
  by_cases wanted : token.kind = kind
  · simp only [Scan.expect, wanted, ↓reduceIte]
  · simp only [Scan.expect, wanted, ↓reduceIte]
    rfl

theorem expect (kind : Kind) (context : Text) :
    like.Simulates loose (Exec.expect kind context) (Exec.expect kind context) :=
  bind (scanExpect kind context) fun _ => pure ()

theorem expectName (context : Text) :
    like.Simulates loose (Exec.expectName context) (Exec.expectName context) :=
  bind (scanExpect .identifier context) fun token => pure token.lexeme

theorem moveTo {cursor cursor' : Cursor} (place : like.place cursor cursor') :
    like.Simulates loose (Exec.moveTo cursor) (Exec.moveTo cursor') := by
  rintro machine _ ⟨-, talk, orderly⟩
  exact .ok (.intro place talk orderly)

theorem evaluate : like.Simulates True Exec.evaluate Exec.evaluate := by
  refine get ?_
  rintro machine _ ⟨-, talk, -⟩
  rw [like.talk_limit talk]
  refine scan fun cursor cursor' place => ?_
  cases evaluated : Expression.evaluate machine.console.groupLimit
    machine.env.bindings cursor with
  | ok value after =>
      obtain ⟨openEnd, atEnd⟩ | ⟨after', evaluated', placeAfter⟩ :=
        like.evaluate_ok place evaluated
      · exact .spent trivial openEnd atEnd
      · rw [evaluated']
        exact .ok placeAfter
  | error stop after =>
      obtain forgives | ⟨after', evaluated'⟩ := like.evaluate_error place evaluated
      · exact .forgiven forgives
      · rw [evaluated']
        exact .error

/-- The place behind a closer is handed on; the places of the two runs correspond. -/
theorem closing {opener closer : Kind} {what : String} {next next' : Cursor → Exec α}
    (simulates : ∀ cursor cursor', like.place cursor cursor' →
      like.Simulates loose (next cursor) (next' cursor')) :
    like.Simulates loose (Exec.scan (Scan.closing opener closer what) >>= next)
      (Exec.scan (Scan.closing opener closer what) >>= next') := by
  rintro machine _ ⟨place, talk, orderly⟩
  cases found : machine.cursor.closing? opener closer with
  | some after =>
      obtain ⟨after', found', placeAfter⟩ := like.closing_some place found
      rw [bind_of_ok (Exec.closing_eq_ok.mpr ⟨found, rfl⟩),
        bind_of_ok (Exec.closing_eq_ok.mpr ⟨found', rfl⟩)]
      exact simulates _ _ placeAfter _ _ (.intro place talk orderly)
  | none =>
      rw [bind_of_error (Exec.closing_of_none found what)]
      obtain openEnd | ⟨found', isLast⟩ := like.closing_none place found
      · exact .forgiven (like.forgives_of_openEnd openEnd _)
      · rw [bind_of_error (Exec.closing_of_none found' what)]
        simp only [Cursor.unmatched, isLast]
        exact .error rfl talk

theorem skipBlock : like.Simulates loose Exec.skipBlock Exec.skipBlock := by
  rw [Exec.skipBlock_eq]
  exact closing fun _ _ place => moveTo place

/-! ## The console, the variables and the flags -/

theorem note (event : Event) : like.Simulates loose (Exec.note event) (Exec.note event) := by
  rintro machine _ ⟨place, talk, orderly⟩
  exact .ok (.intro place (like.talk_note event talk) orderly)

theorem write (line : Text) : like.Simulates loose (Exec.write line) (Exec.write line) := by
  rintro machine _ ⟨place, talk, orderly⟩
  exact .ok (.intro place (like.talk_write line talk) orderly)

theorem read : like.Simulates loose Exec.read Exec.read := by
  rintro machine _ ⟨place, talk, orderly⟩
  obtain ⟨sameLine, talkAfter⟩ := like.talk_read talk
  show like.Agrees loose
    (.ok machine.console.read.1 { machine with console := machine.console.read.2 }) _
  rw [← sameLine]
  exact .ok (.intro place talkAfter orderly)

/-- Both runs change the variables in the same way. -/
theorem setEnv (env : Environment) :
    like.Simulates loose (modify fun machine => { machine with env })
      (modify fun machine => { machine with env }) := by
  rintro machine _ ⟨place, talk, orderly⟩
  exact .ok (.intro place talk orderly)

theorem lookup (name : Text) : like.Simulates loose (Exec.lookup name) (Exec.lookup name) := by
  refine get ?_
  rintro machine _ ⟨-, -, -⟩
  dsimp only
  cases machine.env.lookup name with
  | ok value => exact pure value
  | error cause => exact throw _

theorem declare (name : Text) (value : Value) :
    like.Simulates loose (Exec.declare name value) (Exec.declare name value) := by
  refine get ?_
  rintro machine _ ⟨-, -, -⟩
  dsimp only
  cases machine.env.declare name value with
  | ok env => exact setEnv env
  | error cause => exact throw _

theorem assign (name : Text) (value : Value) :
    like.Simulates loose (Exec.assign name value) (Exec.assign name value) := by
  refine get ?_
  rintro machine _ ⟨-, -, -⟩
  dsimp only
  cases machine.env.assign name value with
  | error cause => exact throw _
  | ok assigned =>
      obtain ⟨env, mismatch⟩ := assigned
      refine bind (setEnv env) fun _ => ?_
      cases mismatch with
      | some mismatch => exact note _
      | none => exact pure ()

theorem combine (name : Text) (operand : Value) (assignment : Exec.Assignment) :
    like.Simulates loose (Exec.combine name operand assignment)
      (Exec.combine name operand assignment) := by
  cases assignment with
  | plain => exact pure operand
  | combined op =>
      refine bind (lookup name) fun current => scan fun cursor cursor' place => ?_
      cases op.apply current operand with
      | ok value => exact .ok place
      | error error => exact .error

theorem settle : like.Simulates loose Exec.settle Exec.settle := by
  rintro machine _ ⟨place, talk, orderly⟩
  exact .ok (.intro place talk orderly)

/-! ## Statements -/

theorem printStatement : like.Simulates loose Exec.printStatement Exec.printStatement :=
  bind pass fun _ => bind (expect _ _) fun _ =>
    demand evaluate (fun _ => bind (expect _ _) fun _ => write _) fun _ =>
      (Demands.expect _ _).bind

theorem declarationStatement :
    like.Simulates True Exec.declarationStatement Exec.declarationStatement :=
  bind pass fun _ => bind (expectName _) fun _ => bind (expect _ _) fun _ =>
    still evaluate (fun _ => bind (declare _ _) fun _ => note _)
      fun _ => (Exec.Still.declare _ _).bind fun _ => .note _

theorem assignTo (name : Text) (assignment : Exec.Assignment) :
    like.Simulates True (Exec.assignTo name assignment) (Exec.assignTo name assignment) :=
  still evaluate (fun _ => bind (combine _ _ _) fun _ => bind (assign _ _) fun _ => note _)
    fun _ => (Exec.Still.combine _ _ _).bind fun _ =>
      (Exec.Still.assign _ _).bind fun _ => .note _

theorem inputStatement : like.Simulates loose Exec.inputStatement Exec.inputStatement := by
  refine bind pass fun _ => bind (expect _ _) fun _ => bind (expectName _) fun name =>
    bind (expect _ _) fun _ => get ?_
  rintro machine _ ⟨-, -, -⟩
  dsimp only
  cases machine.env.bindings.get? name with
  | none => exact throw _
  | some current =>
      refine bind read fun line => ?_
      cases Value.ofInput current.ty line with
      | error error => exact throw _
      | ok value => exact bind (assign _ _) fun _ => note _

theorem returnStatement : like.Simulates True Exec.returnStatement Exec.returnStatement := by
  refine bind pass fun _ => still evaluate (fun value => bind ?_ fun _ => note _)
    fun _ => .bind (.modify (by intro; rfl)) fun _ => .note _
  rintro machine _ ⟨place, talk, -⟩
  exact .ok (.intro place talk nofun)

theorem breakStatement : like.Simulates loose Exec.breakStatement Exec.breakStatement := by
  refine bind pass fun _ => bind ?_ fun _ => note _
  rintro machine _ ⟨place, talk, orderly⟩
  exact .ok (.intro place talk orderly)

theorem continueStatement :
    like.Simulates loose Exec.continueStatement Exec.continueStatement := by
  refine bind pass fun _ => bind ?_ fun _ => note _
  rintro machine _ ⟨place, talk, orderly⟩
  exact .ok (.intro place talk orderly)

theorem dropValue :
    like.Simulates True (do let _ ← Exec.evaluate : Exec Unit) (do let _ ← Exec.evaluate) :=
  still evaluate (fun _ => pure ()) fun _ => .pure ()

/-- With one token ahead at most, an expression that is evaluated comes to the end of the
tokens. -/
theorem dropValue_atEnd {machine : Machine} (few : machine.cursor.rest.length ≤ 1)
    (openEnd : like.openEnd) (result' : EStateM.Result Stop Machine Unit) :
    like.Agrees True ((do let _ ← Exec.evaluate : Exec Unit) machine) result' := by
  cases dropped : (do let _ ← Exec.evaluate : Exec Unit) machine with
  | error stop after => exact .forgiven (like.forgives_of_openEnd openEnd stop)
  | ok _ after =>
      obtain ⟨value, _, succeeded, returned⟩ := bind_eq_ok.mp dropped
      obtain ⟨cursor, evaluated, rfl⟩ := Exec.evaluate_eq_ok.mp succeeded
      obtain ⟨-, rfl⟩ := pure_eq_ok.mp returned
      have shorter := Expression.evaluate_advances _ _ _ _ _ evaluated
      exact .spent trivial openEnd (List.length_eq_zero_iff.mp (by dsimp only; omega))

theorem identifierStatement :
    like.Simulates True Exec.identifierStatement Exec.identifierStatement := by
  intro machine machine' alike
  rw [Exec.identifierStatement, get_bind, get_bind]
  match shape : machine.cursor.rest with
  | [] =>
      by_cases openEnd : like.openEnd
      · exact dropValue_atEnd (by simp [shape]) openEnd _
      · rw [alike.rest_eq_nil shape openEnd]
        exact dropValue _ _ alike
  | [target] =>
      by_cases openEnd : like.openEnd
      · exact dropValue_atEnd (by simp [shape]) openEnd _
      · obtain ⟨rest', shape', placeBehind⟩ := alike.rest_eq_cons shape
        obtain rfl : rest' = [] := like.place_nil placeBehind openEnd
        rw [shape']
        exact dropValue _ _ alike
  | target :: sign :: rest =>
      obtain ⟨behind, shape', placeBehind⟩ := alike.rest_eq_cons shape
      obtain ⟨rest', rfl, -⟩ := like.place_cons placeBehind
      rw [shape', alike.env_eq]
      dsimp only
      cases Exec.assignment? sign.kind with
      | none => exact dropValue _ _ alike
      | some assignment =>
          by_cases declared : machine.env.declares target.lexeme
          · simp only [declared, ↓reduceIte]
            exact bind pass (fun _ => bind pass fun _ => assignTo _ _) _ _ alike
          · simp only [declared, Bool.false_eq_true, ↓reduceIte]
            exact throw _ _ _ alike

/-! ## Branches -/

theorem branch {block block' : Exec Unit} (simulates : like.Simulates False block block')
    (taken : Bool) :
    like.Simulates False (Exec.branch block taken) (Exec.branch block' taken) := by
  cases taken with
  | true => exact simulates
  | false => exact skipBlock

theorem elseBranch {block block' : Exec Unit} (simulates : like.Simulates False block block')
    (taken : Bool) :
    like.Simulates True (Exec.elseBranch block taken) (Exec.elseBranch block' taken) := by
  intro machine machine' alike
  rw [Exec.elseBranch, Exec.elseBranch, get_bind, get_bind]
  cases shape : machine.cursor.rest with
  | nil =>
      simp only [Cursor.check, shape, Bool.false_eq_true, ↓reduceIte]
      by_cases openEnd : like.openEnd
      · exact .spent trivial openEnd shape
      · simp only [alike.rest_eq_nil shape openEnd, Bool.false_eq_true, ↓reduceIte]
        exact pure () _ _ alike
  | cons token rest =>
      obtain ⟨rest', shape', -⟩ := alike.rest_eq_cons shape
      simp only [Cursor.check, shape, shape']
      by_cases present : token.kind == .elseKw
      · simp only [present, ↓reduceIte]
        exact
          bind pass (fun _ => bind (expect _ _) fun _ => (branch simulates taken).loosen) _ _ alike
      · simp only [present, Bool.false_eq_true, ↓reduceIte]
        exact pure () _ _ alike

theorem branches {block block' : Exec Unit} (simulates : like.Simulates False block block')
    (value : Value) :
    like.Simulates loose (Exec.branches block value) (Exec.branches block' value) := by
  cases value with
  | boolean holds =>
      exact bind (expect _ _) fun _ => bind (note _) fun _ => bind (branch simulates _) fun _ =>
        demand (elseBranch simulates _) (fun _ => expect _ _) fun _ => .expect _ _
  | _ => exact throw _

theorem conditionalStatement {block block' : Exec Unit}
    (simulates : like.Simulates False block block') :
    like.Simulates loose (Exec.conditionalStatement block) (Exec.conditionalStatement block') :=
  bind pass fun _ => bind (expect _ _) fun _ =>
    demand evaluate (fun _ => bind (expect _ _) fun _ => branches simulates _)
      fun _ => (Demands.expect _ _).bind

/-! ## Loops -/

theorem loopStatement {turns turns' : Cursor → Cursor → Exec Nat}
    (simulates : ∀ {condition condition' body body' : Cursor}, like.place condition condition' →
      like.place body body' → like.Simulates False (turns condition body)
      (turns' condition' body')) :
    like.Simulates loose (Exec.loopStatement turns) (Exec.loopStatement turns') := by
  refine bind pass fun _ => bind (expect _ _) fun _ => get fun _ _ ⟨placeCondition, _, _⟩ =>
    closing fun _ _ placeBehind => bind (moveTo placeBehind) fun _ => bind (expect _ _) fun _ =>
      get fun _ _ ⟨placeBody, _, _⟩ => closing fun _ _ placeAfter => ?_
  exact bind (simulates placeCondition placeBody) fun _ => bind (note _) fun _ =>
    bind settle fun _ => bind (moveTo placeAfter) fun _ => expect _ _

/-! ## Statements, blocks and turns -/

theorem statementBody {block block' : Exec Unit} {turns turns' : Cursor → Cursor → Exec Nat}
    (simulates : like.Simulates False block block')
    (simulatesTurns : ∀ {condition condition' body body' : Cursor},
      like.place condition condition' →
      like.place body body' → like.Simulates False (turns condition body)
      (turns' condition' body')) :
    like.Simulates True (Exec.statementBody block turns)
      (Exec.statementBody block' turns') := by
  intro machine machine' alike
  rw [Exec.statementBody, Exec.statementBody, get_bind, get_bind]
  cases shape : machine.cursor.rest with
  | nil =>
      by_cases openEnd : like.openEnd
      · exact .forgiven (like.forgives_of_openEnd openEnd _)
      · rw [alike.rest_eq_nil shape openEnd]
        exact throw _ _ _ alike
  | cons token rest =>
      obtain ⟨rest', shape', -⟩ := alike.rest_eq_cons shape
      rw [shape']
      simp only [List.head?_cons, Option.map_some]
      cases token.kind
      case printKw => exact printStatement _ _ alike
      case varKw => exact declarationStatement _ _ alike
      case identifier => exact identifierStatement _ _ alike
      case ifKw => exact conditionalStatement simulates _ _ alike
      case whileKw => exact loopStatement simulatesTurns _ _ alike
      case inputKw => exact inputStatement _ _ alike
      case returnKw => exact returnStatement _ _ alike
      case breakKw => exact breakStatement _ _ alike
      case continueKw => exact continueStatement _ _ alike
      all_goals exact throw _ _ _ alike

/-- A statement, when its blocks and its turns agree. -/
theorem statement_succ {steps steps' : Nat}
    (block : like.Simulates False (Exec.block steps) (Exec.block steps'))
    (turns : ∀ {condition condition' body body' : Cursor} (count : Nat),
      like.place condition condition' →
      like.place body body' →
        like.Simulates False (Exec.turns steps condition body count)
        (Exec.turns steps' condition' body' count)) :
    like.Simulates False (Exec.statement (steps + 1)) (Exec.statement (steps' + 1)) := by
  simp only [Exec.statement]
  exact bind (expect _ _) fun _ =>
    demand (statementBody block (turns 0)) (fun _ => expect _ _) fun _ => .expect _ _

/-- A block, when its first statement and its other statements agree. -/
theorem block_succ {steps steps' : Nat}
    (statement : like.Simulates False (Exec.statement steps) (Exec.statement steps'))
    (block : like.Simulates False (Exec.block steps) (Exec.block steps')) :
    like.Simulates False (Exec.block (steps + 1)) (Exec.block (steps' + 1)) := by
  intro machine machine' alike
  simp only [Exec.block, get_bind]
  cases shape : machine.cursor.rest with
  | nil =>
      by_cases openEnd : like.openEnd
      · exact .forgiven (like.forgives_of_openEnd openEnd _)
      · rw [alike.rest_eq_nil shape openEnd]
        exact throw _ _ _ alike
  | cons token rest =>
      obtain ⟨rest', shape', -⟩ := alike.rest_eq_cons shape
      rw [shape', alike.flags_eq]
      dsimp only
      by_cases closes : token.kind = .blockClose
      · simp only [closes, ↓reduceIte]
        exact pass _ _ alike
      by_cases interrupted : machine.flags.interrupted
      · simp only [closes, interrupted, ↓reduceIte]
        exact skipBlock _ _ alike
      · simp only [closes, interrupted, Bool.false_eq_true, ↓reduceIte]
        exact bind statement (fun _ => block) _ _ alike

/-- The turns of a loop, when the body and the further turns agree. -/
theorem turns_succ {steps steps' count : Nat} {condition condition' body body' : Cursor}
    (placeCondition : like.place condition condition') (placeBody : like.place body body')
    (block : like.Simulates False (Exec.block steps) (Exec.block steps'))
    (turns : like.Simulates False (Exec.turns steps condition body (count + 1))
      (Exec.turns steps' condition' body' (count + 1))) :
    like.Simulates False (Exec.turns (steps + 1) condition body count)
      (Exec.turns (steps' + 1) condition' body' count) := by
  simp only [Exec.turns]
  refine bind settle fun _ => bind (moveTo placeCondition) fun _ =>
    demand evaluate (fun value => ?_) fun _ => (Demands.expect _ _).bind
  refine bind (expect _ _) fun _ => ?_
  split
  · refine bind (moveTo placeBody) fun _ => bind block fun _ =>
      get fun machine machine' alike => ?_
    rw [alike.flags_eq]
    split
    · exact pure _
    · exact turns
  · exact pure _
  · exact bind (note _) fun _ => pure _

theorem outOfSteps (computation' : Exec α) :
    like.Simulates False (MonadExcept.throw Stop.outOfSteps) computation' :=
  fun _ _ _ => .forgiven like.forgives_outOfSteps

end Simulates

/-- **Statements, blocks and loops agree**, where the second run has at least the budget of the
first. -/
theorem simulates_of_le {steps steps' : Nat} (enough : steps ≤ steps') :
    like.Simulates False (Exec.statement steps) (Exec.statement steps') ∧
      like.Simulates False (Exec.block steps) (Exec.block steps') ∧
      ∀ {condition condition' body body' : Cursor} (count : Nat),
        like.place condition condition' →
        like.place body body' →
          like.Simulates False (Exec.turns steps condition body count)
            (Exec.turns steps' condition' body' count) := by
  induction steps generalizing steps' with
  | zero =>
      refine ⟨?_, ?_, fun count _ _ => ?_⟩
      · simp only [Exec.statement]
        exact .outOfSteps _
      · simp only [Exec.block]
        exact .outOfSteps _
      · simp only [Exec.turns]
        exact .outOfSteps _
  | succ steps ih =>
      obtain ⟨steps', rfl⟩ : ∃ fewer, steps' = fewer + 1 := ⟨steps' - 1, by omega⟩
      obtain ⟨statement, block, turns⟩ := ih (Nat.le_of_succ_le_succ enough)
      exact ⟨.statement_succ block turns, .block_succ statement block,
        fun count placeCondition placeBody => .turns_succ placeCondition placeBody block
          (turns _ placeCondition placeBody)⟩

theorem statement_simulates {steps steps' : Nat} (enough : steps ≤ steps') :
    like.Simulates False (Exec.statement steps) (Exec.statement steps') :=
  (simulates_of_le enough).1

/-- Whole programs agree, if the second one ends where the first one does. -/
theorem statements_simulates (closed : ¬like.openEnd) {steps steps' : Nat}
    (enough : steps ≤ steps') :
    like.Simulates False (Exec.statements steps) (Exec.statements steps') := by
  induction steps generalizing steps' with
  | zero =>
      simp only [Exec.statements]
      exact .outOfSteps _
  | succ steps ih =>
      obtain ⟨steps', rfl⟩ : ∃ fewer, steps' = fewer + 1 := ⟨steps' - 1, by omega⟩
      have fewer : steps ≤ steps' := Nat.le_of_succ_le_succ enough
      simp only [Exec.statements]
      refine .get fun machine machine' alike => ?_
      have sameEnd : machine'.cursor.rest.isEmpty = machine.cursor.rest.isEmpty := by
        cases shape : machine.cursor.rest with
        | nil => rw [alike.rest_eq_nil shape closed]
        | cons token rest =>
            obtain ⟨rest', shape', -⟩ := alike.rest_eq_cons shape
            rw [shape']
            rfl
      rw [sameEnd, alike.flags_eq]
      split
      · exact .pure ()
      · exact .bind (statement_simulates fewer) fun _ => ih fewer

/-! ## Runs that differ in their consoles only -/

/-- The same program in both runs. Only a run that uses up its budget says nothing about the
other one. -/
def samePlace (echo : Echo) : Likeness where
  toEcho := echo
  place := Eq
  forgives stop := stop = .outOfSteps
  openEnd := False
  forgives_outOfSteps := rfl
  forgives_of_openEnd := False.elim
  place_nil same _ := by rw [← same]
  place_cons same := ⟨_, by rw [← same], rfl⟩
  evaluate_ok same evaluated := .inr ⟨_, same ▸ evaluated, rfl⟩
  evaluate_error same evaluated := .inr ⟨_, same ▸ evaluated⟩
  closing_some same found := ⟨_, same ▸ found, rfl⟩
  closing_none same unclosed := .inr ⟨same ▸ unclosed, by rw [same]⟩

/-- The same program on the same console. -/
def budget : Likeness := samePlace .same

end Likeness

end ToonScript
