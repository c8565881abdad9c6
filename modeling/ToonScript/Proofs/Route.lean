import Mathlib.Logic.Relation
import ToonScript.Proofs.Primitive
import ToonScript.Proofs.Tree.Brackets

/-!
# Routes of the cursor

A statement that succeeds moves the cursor over a stretch of tokens. A route says which stretch,
without the variables, the flags or the input: `Route.statement` leads over a marker, then over
what the first word of the statement asks for, then over another marker; where a block has to be
passed, it leads behind the closer of the block, whether the block is executed, cut short or
skipped.

The main lemma is that every execution follows its route (`statement_follows`, `block_follows`).
The loop is the interesting case. Its condition is first passed by a scan that counts the
brackets of groups and knows nothing of expressions; since an expression is balanced, the scan
ends where the evaluation of the condition does.

Everything else is read off the routes: they are functions of the place where they start, and
the stretch of a statement is balanced in the brackets of blocks.
-/

set_option autoImplicit false

namespace ToonScript

open Token (Kind)

/-- A relation between two places of a program. -/
abbrev Route := Cursor → Cursor → Prop

namespace Route

/-- Past the next token. -/
def token : Route := fun cursor after =>
  ∃ next, cursor.rest = next :: after.rest ∧ after.last = some next

/-- Past the next token, which is of a kind. -/
def kind (wanted : Kind) : Route := fun cursor after =>
  ∃ next, cursor.rest = next :: after.rest ∧ after.last = some next ∧ next.kind = wanted

/-- Past an expression that has a value for some variables. -/
def expression : Route := fun cursor after =>
  ∃ limit bindings value, Expression.evaluate limit bindings cursor = .ok value after

/-- Past the closer of a block whose opener was passed. -/
def block : Route := fun cursor after => cursor.closing? .blockOpen .blockClose = some after

/-- Several routes, one after the other. -/
def along : List Route → Route
  | [] => Eq
  | route :: routes => Relation.Comp route (along routes)

/-- Past the other branch of a conditional, if there is one. -/
def alternative : Route := fun cursor after =>
  if cursor.check (· == .elseKw) then along [token, kind .blockOpen, block] cursor after else
    cursor = after

/-- Past an assignment, or past the expression that a statement consists of. -/
def assignment : Route := fun cursor after =>
  match cursor.rest with
  | _ :: sign :: _ =>
    if (Exec.assignment? sign.kind).isSome then along [token, token, expression] cursor after
    else expression cursor after
  | _ => expression cursor after

/-- The route of a statement between its markers, by the kind of its first token. -/
def steps : Kind → List Route
  | .printKw => [token, kind .groupOpen, expression, kind .groupClose]
  | .varKw => [token, kind .identifier, kind .assign, expression]
  | .identifier => [assignment]
  | .ifKw =>
    [token, kind .groupOpen, expression, kind .groupClose, kind .blockOpen, block, alternative,
      kind .breakKw]
  | .whileKw =>
    [token, kind .groupOpen, expression, kind .groupClose, kind .blockOpen, block,
      kind .breakKw]
  | .inputKw => [token, kind .groupOpen, kind .identifier, kind .groupClose]
  | .returnKw => [token, expression]
  | .breakKw => [token]
  | .continueKw => [token]
  | _ => [fun _ _ => False]

/-- Past what stands between the markers of a statement. -/
def body : Route := fun cursor after =>
  ∃ next, cursor.rest.head? = some next ∧ along (steps next.kind) cursor after

/-- Past a statement. -/
def statement : Route := along [kind .marker, body, kind .marker]

end Route

/-! ## Following a route -/

namespace Exec

/-- A computation leads along a route where it succeeds. -/
def Follows {α : Type} (computation : Exec α) (route : Route) : Prop :=
  ∀ machine a after, computation machine = .ok a after → route machine.cursor after.cursor

variable {α β : Type} {first : Exec α} {next : α → Exec β} {route : Route} {routes : List Route}

namespace Follows

theorem cons (follows : Follows first route)
    (followsNext : ∀ a, Follows (next a) (Route.along routes)) :
    Follows (first >>= next) (Route.along (route :: routes)) := by
  intro machine b after succeeds
  obtain ⟨a, middle, begun, ended⟩ := bind_eq_ok.mp succeeds
  exact ⟨middle.cursor, follows _ _ _ begun, followsNext a _ _ _ ended⟩

theorem still (still : Still first) (followsNext : ∀ a, Follows (next a) route) :
    Follows (first >>= next) route := by
  intro machine b after succeeds
  obtain ⟨a, middle, begun, ended⟩ := bind_eq_ok.mp succeeds
  rw [← still _ _ _ begun]
  exact followsNext a _ _ _ ended

theorem single (follows : Follows first route) : Follows first (Route.along [route]) :=
  fun _ _ after succeeds => ⟨after.cursor, follows _ _ _ succeeds, rfl⟩

theorem last (follows : Follows first route) (still : ∀ a, Still (next a)) :
    Follows (first >>= next) (Route.along [route]) :=
  follows.cons fun a _ _ _ succeeds => (still a _ _ _ succeeds).symm

theorem pass : Follows pass Route.token := by
  intro machine a after succeeds
  obtain ⟨token, rest, parts, rfl⟩ := pass_eq_ok.mp succeeds
  exact ⟨token, parts, rfl⟩

theorem expect (kind : Kind) (context : Text) :
    Follows (expect kind context) (Route.kind kind) := by
  intro machine a after succeeds
  obtain ⟨token, rest, parts, wanted, rfl⟩ := expect_eq_ok.mp succeeds
  exact ⟨token, parts, rfl, wanted⟩

theorem expectName (context : Text) :
    Follows (expectName context) (Route.kind .identifier) := by
  intro machine a after succeeds
  obtain ⟨token, rest, parts, wanted, -, rfl⟩ := expectName_eq_ok.mp succeeds
  exact ⟨token, parts, rfl, wanted⟩

theorem evaluate : Follows evaluate Route.expression := by
  intro machine value after succeeds
  obtain ⟨cursor, evaluated, rfl⟩ := evaluate_eq_ok.mp succeeds
  exact ⟨_, _, value, evaluated⟩

theorem skipBlock : Follows skipBlock Route.block := by
  intro machine a after succeeds
  obtain ⟨cursor, found, rfl⟩ := skipBlock_eq_ok.mp succeeds
  exact found

end Follows

/-! ## The statements -/

theorem printStatement_follows :
    Follows printStatement
      (Route.along [.token, .kind .groupOpen, .expression, .kind .groupClose]) :=
  .cons .pass fun _ => .cons (.expect _ _) fun _ => .cons .evaluate fun _ =>
    .last (.expect _ _) fun _ => .write _

theorem declarationStatement_follows :
    Follows declarationStatement
      (Route.along [.token, .kind .identifier, .kind .assign, .expression]) :=
  .cons .pass fun _ => .cons (.expectName _) fun _ => .cons (.expect _ _) fun _ =>
    .last .evaluate fun _ => (Still.declare _ _).bind fun _ => .note _

theorem assignTo_follows (name : Text) (assignment : Assignment) :
    Follows (assignTo name assignment) (Route.along [.expression]) :=
  .last .evaluate fun _ => (Still.combine _ _ _).bind fun _ =>
    (Still.assign _ _).bind fun _ => .note _

theorem inputStatement_follows :
    Follows inputStatement
      (Route.along [.token, .kind .groupOpen, .kind .identifier, .kind .groupClose]) := by
  refine .cons .pass fun _ => .cons (.expect _ _) fun _ => .cons (.expectName _) fun name =>
    .last (.expect _ _) fun _ => Still.get.bind fun machine => ?_
  cases machine.env.bindings.get? name with
  | none => exact .throw _
  | some current =>
      refine Still.read.bind fun line => ?_
      cases Value.ofInput current.ty line with
      | error error => exact .throw _
      | ok value => exact (Still.assign _ _).bind fun _ => .note _

theorem returnStatement_follows : Follows returnStatement (Route.along [.token, .expression]) :=
  .cons .pass fun _ => .last .evaluate fun _ => .bind (.modify (by intro; rfl)) fun _ => .note _

theorem breakStatement_follows : Follows breakStatement (Route.along [.token]) :=
  .last .pass fun _ => .bind (.modify (by intro; rfl)) fun _ => .note _

theorem continueStatement_follows : Follows continueStatement (Route.along [.token]) :=
  .last .pass fun _ => .bind (.modify (by intro; rfl)) fun _ => .note _

theorem identifierStatement_follows : Follows identifierStatement Route.assignment := by
  intro machine a after succeeds
  have dropped : Follows (do let _ ← evaluate : Exec Unit) Route.expression := by
    intro machine a after succeeds
    obtain ⟨value, middle, evaluated, returned⟩ := bind_eq_ok.mp succeeds
    obtain ⟨-, rfl⟩ := pure_eq_ok.mp returned
    exact Follows.evaluate _ _ _ evaluated
  rw [identifierStatement, get_bind] at succeeds
  unfold Route.assignment
  match shape : machine.cursor.rest with
  | [] =>
      rw [shape] at succeeds
      exact dropped _ _ _ succeeds
  | [target] =>
      rw [shape] at succeeds
      exact dropped _ _ _ succeeds
  | target :: sign :: rest =>
      rw [shape] at succeeds
      cases known : assignment? sign.kind with
      | none =>
          simp only [known] at succeeds
          simp only [known, Option.isSome_none, Bool.false_eq_true, ↓reduceIte]
          exact dropped _ _ _ succeeds
      | some assignment =>
          simp only [known] at succeeds
          simp only [known, Option.isSome_some, ↓reduceIte]
          split at succeeds
          · have follows : Follows (do pass; pass; assignTo target.lexeme assignment)
                (Route.along [.token, .token, .expression]) :=
              .cons .pass fun _ => .cons .pass fun _ => assignTo_follows _ _
            exact follows _ _ _ succeeds
          · cases succeeds

theorem branch_follows {block : Exec Unit} (follows : Follows block Route.block)
    (taken : Bool) : Follows (branch block taken) Route.block := by
  cases taken with
  | true => exact follows
  | false => exact .skipBlock

theorem elseBranch_follows {block : Exec Unit} (follows : Follows block Route.block)
    (taken : Bool) : Follows (elseBranch block taken) Route.alternative := by
  intro machine a after succeeds
  rw [elseBranch, get_bind] at succeeds
  unfold Route.alternative
  split
  · next present =>
      rw [if_pos present] at succeeds
      have opened :
          Follows (do pass; expect .blockOpen "to open 'else' block"; branch block taken)
          (Route.along [.token, .kind .blockOpen, .block]) :=
        .cons .pass fun _ => .cons (.expect _ _) fun _ => .single (branch_follows follows taken)
      exact opened _ _ _ succeeds
  · next absent =>
      rw [if_neg absent] at succeeds
      obtain ⟨-, rfl⟩ := pure_eq_ok.mp succeeds
      rfl

theorem branches_follows {block : Exec Unit} (follows : Follows block Route.block)
    (condition : Value) :
    Follows (branches block condition)
      (Route.along [.kind .blockOpen, .block, .alternative, .kind .breakKw]) := by
  cases condition with
  | boolean holds =>
      exact .cons (.expect _ _) fun _ => .still (.note _) fun _ =>
        .cons (branch_follows follows _) fun _ =>
        .cons (elseBranch_follows follows _) fun _ => .single (.expect _ _)
  | _ => exact fun _ _ _ succeeds => by cases succeeds

theorem conditionalStatement_follows {block : Exec Unit} (follows : Follows block Route.block) :
    Follows (conditionalStatement block) (Route.along (Route.steps .ifKw)) :=
  .cons .pass fun _ => .cons (.expect _ _) fun _ => .cons .evaluate fun condition =>
    .cons (.expect _ _) fun _ => branches_follows follows condition

/-! ## Loops -/

/-- The scan for the closer of a group ends behind an expression that is followed by the closer.
-/
theorem closing?_of_expression {cursor middle after : Cursor}
    (expression : Route.expression cursor middle)
    (closed : Route.kind .groupClose middle after) :
    cursor.closing? .groupOpen .groupClose = some after := by
  obtain ⟨limit, bindings, value, evaluated⟩ := expression
  obtain ⟨formula, tokens, spelled, -, -, read, -⟩ := Expression.evaluate_eq_ok_iff.mp evaluated
  obtain ⟨close, parts, isLast, closes⟩ := closed
  rw [Cursor.closing?_eq_some_iff (by decide)]
  refine ⟨tokens, close, ?_, isLast, formula.groups_balanced spelled, closes⟩
  rw [read, parts]

/-- The turns of a loop pass the condition and the closer behind it, if only once. -/
def PassesCondition (turns : Cursor → Cursor → Exec Nat) : Prop :=
  ∀ condition body machine count after, turns condition body machine = .ok count after →
    ∃ middle behind, Route.expression condition middle ∧ Route.kind .groupClose middle behind

theorem loopStatement_follows {turns : Cursor → Cursor → Exec Nat}
    (passes : PassesCondition turns) :
    Follows (loopStatement turns) (Route.along (Route.steps .whileKw)) := by
  refine .cons .pass fun _ => .cons (.expect _ _) fun _ => ?_
  intro machine a after succeeds
  rw [get_bind] at succeeds
  obtain ⟨afterCondition, _, located, succeeds⟩ := bind_eq_ok.mp succeeds
  obtain ⟨closesCondition, rfl⟩ := closing_eq_ok.mp located
  obtain ⟨_, atBlock, moved, succeeds⟩ := bind_eq_ok.mp succeeds
  obtain ⟨_, inBlock, opened, succeeds⟩ := bind_eq_ok.mp succeeds
  rw [get_bind] at succeeds
  obtain ⟨afterBody, _, locatedBody, succeeds⟩ := bind_eq_ok.mp succeeds
  obtain ⟨closesBody, rfl⟩ := closing_eq_ok.mp locatedBody
  obtain ⟨count, _, turned, succeeds⟩ := bind_eq_ok.mp succeeds
  obtain ⟨_, _, noted, succeeds⟩ := bind_eq_ok.mp succeeds
  obtain ⟨_, _, settled, succeeds⟩ := bind_eq_ok.mp succeeds
  obtain ⟨_, behind, returned, ended⟩ := bind_eq_ok.mp succeeds
  obtain ⟨middle, closed, expression, closes⟩ := passes _ _ _ _ _ turned
  have same : closed = afterCondition := by
    have found := closing?_of_expression expression closes
    rw [closesCondition] at found
    exact (Option.some.inj found).symm
  cases moved
  cases returned
  refine ⟨middle, expression, closed, closes, inBlock.cursor, ?_, afterBody, closesBody, ?_⟩
  · rw [same]
    exact Follows.expect _ _ _ _ _ opened
  · exact Follows.single (.expect _ _) _ _ _ ended

/-! ## Statements and blocks -/

theorem statementBody_follows {block : Exec Unit} {turns : Cursor → Cursor → Exec Nat}
    (follows : Follows block Route.block) (passes : PassesCondition turns) :
    Follows (statementBody block turns) Route.body := by
  intro machine a after succeeds
  rw [statementBody, get_bind] at succeeds
  cases ahead : machine.cursor.rest.head? with
  | none =>
      rw [ahead] at succeeds
      cases succeeds
  | some next =>
      rw [ahead] at succeeds
      refine ⟨next, ahead, ?_⟩
      cases kind : next.kind <;> simp only [Option.map_some, kind] at succeeds
      case printKw => exact printStatement_follows _ _ _ succeeds
      case varKw => exact declarationStatement_follows _ _ _ succeeds
      case identifier => exact Follows.single identifierStatement_follows _ _ _ succeeds
      case ifKw => exact conditionalStatement_follows follows _ _ _ succeeds
      case whileKw => exact loopStatement_follows passes _ _ _ succeeds
      case inputKw => exact inputStatement_follows _ _ _ succeeds
      case returnKw => exact returnStatement_follows _ _ _ succeeds
      case breakKw => exact breakStatement_follows _ _ _ succeeds
      case continueKw => exact continueStatement_follows _ _ _ succeeds
      all_goals cases succeeds

theorem turns_passesCondition (steps count : Nat) :
    PassesCondition fun condition body => turns steps condition body count := by
  intro condition body machine iterations after succeeds
  cases steps with
  | zero => cases succeeds
  | succ steps =>
      simp only [turns] at succeeds
      obtain ⟨_, _, settled, succeeds⟩ := bind_eq_ok.mp succeeds
      obtain ⟨_, _, moved, succeeds⟩ := bind_eq_ok.mp succeeds
      obtain ⟨value, evaluated, valued, succeeds⟩ := bind_eq_ok.mp succeeds
      obtain ⟨_, closed, closes, succeeds⟩ := bind_eq_ok.mp succeeds
      cases moved
      exact ⟨evaluated.cursor, closed.cursor, Follows.evaluate _ _ _ valued,
        Follows.expect _ _ _ _ _ closes⟩

end Exec

/-! ## Routes are balanced -/

namespace Route

/-- A route over stretches that are balanced in the brackets of blocks. -/
def Balances (route : Route) : Prop :=
  ∀ cursor after, route cursor after →
    ∃ span, cursor.rest = span ++ after.rest ∧ Balanced .blockOpen .blockClose span

namespace Balances

variable {route : Route} {routes : List Route}

theorem nil : Balances (along []) := by
  rintro cursor _ rfl
  exact ⟨[], rfl, .nil⟩

theorem cons (balances : Balances route) (balancesRest : Balances (along routes)) :
    Balances (along (route :: routes)) := by
  rintro cursor after ⟨middle, first, rest⟩
  obtain ⟨front, parts, balancedFront⟩ := balances _ _ first
  obtain ⟨back, parts', balancedBack⟩ := balancesRest _ _ rest
  exact ⟨front ++ back, by rw [parts, parts', List.append_assoc],
    balancedFront.append balancedBack⟩

theorem kind {wanted : Kind} (notOpener : wanted ≠ .blockOpen)
    (notCloser : wanted ≠ .blockClose) :
    Balances (kind wanted) := by
  rintro cursor after ⟨next, parts, -, rfl⟩
  exact ⟨[next], parts, .single notOpener notCloser⟩

theorem expression : Balances expression := by
  rintro cursor after ⟨limit, bindings, value, evaluated⟩
  obtain ⟨formula, tokens, spelled, -, -, read, -⟩ := Expression.evaluate_eq_ok_iff.mp evaluated
  exact ⟨tokens, read, .of_neutral (Expr.neutral_of_spelled spelled)⟩

/-- An opener, the block behind it and a balanced route behind the block. -/
theorem enclosed (balances : Balances (along routes)) :
    Balances (along (Route.kind .blockOpen :: block :: routes)) := by
  rintro cursor after ⟨inside, ⟨opener, opening, -, opens⟩, behind, closed, rest⟩
  obtain ⟨inner, closer, parts, -, balanced, closes⟩ :=
    (Cursor.closing?_eq_some_iff (by decide)).mp closed
  obtain ⟨back, parts', balancedBack⟩ := balances _ _ rest
  refine ⟨opener :: (inner ++ [closer]) ++ back, ?_,
    (Balanced.wrap (by decide) opens closes balanced).append balancedBack⟩
  rw [opening, parts, parts']
  simp

/-- The first token of a route, when its kind is known from the place where the route starts. -/
theorem word {cursor after : Cursor} {next : Token} (ahead : cursor.rest.head? = some next)
    (notOpener : next.kind ≠ .blockOpen) (notCloser : next.kind ≠ .blockClose)
    (balances : Balances (along routes)) (leads : along (token :: routes) cursor after) :
    ∃ span, cursor.rest = span ++ after.rest ∧ Balanced .blockOpen .blockClose span := by
  obtain ⟨middle, ⟨first, parts, -⟩, rest⟩ := leads
  obtain ⟨back, parts', balancedBack⟩ := balances _ _ rest
  rw [parts] at ahead
  obtain rfl : first = next := Option.some.inj ahead
  exact ⟨first :: back, by rw [parts, parts']; rfl,
    (Balanced.single notOpener notCloser).append balancedBack⟩

theorem alternative : Balances alternative := by
  intro cursor after leads
  unfold Route.alternative at leads
  split at leads
  · next present =>
      cases shape : cursor.rest with
      | nil =>
          rw [Cursor.check, shape] at present
          cases present
      | cons first rest =>
          simp only [Cursor.check, shape, beq_iff_eq] at present
          rw [← shape]
          exact word (by rw [shape]; rfl) (by rw [present]; decide) (by rw [present]; decide)
            (enclosed nil) leads
  · obtain rfl := leads
    exact ⟨[], rfl, .nil⟩

/-- An assignment sign is no bracket. -/
theorem assignment : ∀ cursor after, (cursor.rest.head?.map Token.kind = some .identifier) →
    Route.assignment cursor after →
    ∃ span, cursor.rest = span ++ after.rest ∧ Balanced .blockOpen .blockClose span := by
  intro cursor after identifier leads
  unfold Route.assignment at leads
  split at leads
  · next target sign rest shape =>
      split at leads
      · next known =>
          obtain ⟨middle, ⟨first, parts, -⟩, rest⟩ := leads
          have targetKind : first.kind = .identifier := by
            rw [parts] at identifier
            exact Option.some.inj identifier
          have second : middle.rest.head? = some sign := by
            rw [parts] at shape
            rw [(List.cons.inj shape).2]
            rfl
          obtain ⟨back, parts', balancedBack⟩ :=
            word second (by rintro same; rw [same] at known; cases known)
              (by rintro same; rw [same] at known; cases known) (expression.cons nil) rest
          refine ⟨first :: back, by rw [parts, parts']; rfl, ?_⟩
          exact (Balanced.single (by rw [targetKind]; decide)
            (by rw [targetKind]; decide)).append balancedBack
      · exact expression _ _ leads
  · exact expression _ _ leads

theorem body : Balances body := by
  rintro cursor after ⟨next, ahead, leads⟩
  have group : ∀ {routes : List Route}, Balances (along routes) →
      Balances (along (Route.kind .groupOpen :: Route.expression ::
        Route.kind .groupClose :: routes)) :=
    fun balances => (kind (by decide) (by decide)).cons (expression.cons
      ((kind (by decide) (by decide)).cons balances))
  have ending : Balances (along [Route.kind .breakKw]) :=
    (kind (by decide) (by decide)).cons nil
  cases nextKind : next.kind <;> rw [nextKind] at leads
  case printKw =>
      exact word ahead (by rw [nextKind]; decide) (by rw [nextKind]; decide) (group nil) leads
  case varKw =>
      exact word ahead (by rw [nextKind]; decide) (by rw [nextKind]; decide)
        ((kind (by decide) (by decide)).cons
          ((kind (by decide) (by decide)).cons (expression.cons nil))) leads
  case identifier =>
      obtain ⟨_, leads, rfl⟩ := leads
      exact assignment _ _ (by rw [ahead, Option.map_some, nextKind]) leads
  case ifKw =>
      exact word ahead (by rw [nextKind]; decide) (by rw [nextKind]; decide)
        (group (enclosed (alternative.cons ending))) leads
  case whileKw =>
      exact word ahead (by rw [nextKind]; decide) (by rw [nextKind]; decide)
        (group (enclosed ending)) leads
  case inputKw =>
      exact word ahead (by rw [nextKind]; decide) (by rw [nextKind]; decide)
        ((kind (by decide) (by decide)).cons ((kind (by decide) (by decide)).cons
          ((kind (by decide) (by decide)).cons nil))) leads
  case returnKw =>
      exact word ahead (by rw [nextKind]; decide) (by rw [nextKind]; decide)
        (expression.cons nil) leads
  case breakKw =>
      exact word ahead (by rw [nextKind]; decide) (by rw [nextKind]; decide) nil leads
  case continueKw =>
      exact word ahead (by rw [nextKind]; decide) (by rw [nextKind]; decide) nil leads
  all_goals
    obtain ⟨_, never, -⟩ := leads
    exact never.elim

theorem statement : Balances statement :=
  (kind (by decide) (by decide)).cons (body.cons ((kind (by decide) (by decide)).cons nil))

end Balances

end Route

/-! ## Executions follow their routes -/

namespace Exec

/-- **Statements and blocks follow their routes**, with every budget. A block that goes on
behind a statement has passed a balanced stretch, which does not change where its closer is. -/
theorem statement_and_block_follow (steps : Nat) :
    Follows (statement steps) Route.statement ∧ Follows (block steps) Route.block := by
  induction steps with
  | zero =>
      constructor
      · exact fun _ _ _ succeeds => by cases succeeds
      · exact fun _ _ _ succeeds => by cases succeeds
  | succ steps ih =>
      obtain ⟨followsStatement, followsBlock⟩ := ih
      constructor
      · exact .cons (.expect _ _) fun _ =>
          .cons (statementBody_follows followsBlock (turns_passesCondition steps 0)) fun _ =>
            .single (.expect _ _)
      · intro machine a after succeeds
        simp only [block, get_bind] at succeeds
        cases shape : machine.cursor.rest with
        | nil =>
            rw [shape] at succeeds
            cases succeeds
        | cons token rest =>
            rw [shape] at succeeds
            simp only at succeeds
            split at succeeds
            · next closes =>
                obtain ⟨passed, rest', parts, rfl⟩ := pass_eq_ok.mp succeeds
                rw [shape] at parts
                cases parts
                refine (Cursor.closing?_eq_some_iff (by decide)).mpr ⟨[], token, shape,
                  rfl, .nil, closes⟩
            · split at succeeds
              · exact Follows.skipBlock _ _ _ succeeds
              · obtain ⟨_, middle, executed, continued⟩ := bind_eq_ok.mp succeeds
                obtain ⟨span, parts, balanced⟩ :=
                  Route.Balances.statement _ _ (followsStatement _ _ _ executed)
                have closed := followsBlock _ _ _ continued
                rw [Route.block, Cursor.closing?] at closed ⊢
                rw [parts, Cursor.closingFrom_append_of_balanced _ Nat.one_pos balanced, closed]

theorem statement_follows (steps : Nat) : Follows (statement steps) Route.statement :=
  (statement_and_block_follow steps).1

theorem block_follows (steps : Nat) : Follows (block steps) Route.block :=
  (statement_and_block_follow steps).2

end Exec

end ToonScript
