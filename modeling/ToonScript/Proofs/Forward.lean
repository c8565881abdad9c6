import ToonScript.Proofs.Balance
import ToonScript.Proofs.Evaluation

/-!
# Going ahead

A scan moves the cursor over tokens in one direction. Whether it succeeds or stops, the tokens
that were ahead are the tokens that it has passed and those that are still ahead, and the token
just passed is the last of the former (`Scan.GoesAhead`). Evaluation is put together from such
scans, and it never stops for want of steps (`Expression.evaluate_goesAhead`).

The chains of an expression are loops: operands are read as long as operators stand between
them. Each operand passes a token, so such a loop comes to an end, without any bound on the
number of operators (`Expression.chainOn_comesTo`). A group is a recursion, and its opener is a
token that has been passed. So groups come to an end as well, without any limit on their nesting
(`Expression.scanner_limit`).
-/

set_option autoImplicit false

namespace ToonScript

open Token (Kind)

/-! ## Places further ahead -/

/-- From one place to another one the cursor passes some tokens. -/
def Cursor.Passes (cursor after : Cursor) : Prop :=
  ∃ passed, cursor.rest = passed ++ after.rest ∧ after.last = past cursor.last passed

namespace Cursor

variable {cursor middle after : Cursor}

theorem Passes.refl (cursor : Cursor) : cursor.Passes cursor := ⟨[], rfl, rfl⟩

theorem Passes.trans (first : cursor.Passes middle) (second : middle.Passes after) :
    cursor.Passes after := by
  obtain ⟨passed, parts, isLast⟩ := first
  obtain ⟨more, parts', isLast'⟩ := second
  refine ⟨passed ++ more, ?_, ?_⟩
  · rw [parts, parts', List.append_assoc]
  · rw [isLast', isLast, past_append]

theorem Passes.suffix (passes : cursor.Passes after) : after.rest <:+ cursor.rest := by
  obtain ⟨passed, parts, -⟩ := passes
  exact ⟨passed, parts.symm⟩

/-- Past the next token. -/
theorem passes_of_cons {token : Token} (parts : cursor.rest = token :: after.rest)
    (isLast : after.last = some token) :
    cursor.Passes after :=
  ⟨[token], parts, isLast⟩

/-- Past the closer of a bracket. -/
theorem passes_of_closing? {opener closer : Kind}
    (found : cursor.closing? opener closer = some after) :
    cursor.Passes after ∧ after.rest.length < cursor.rest.length := by
  obtain ⟨inner, token, parts, isLast, -⟩ := of_closingFrom_eq_some Nat.one_pos found
  refine ⟨⟨inner ++ [token], ?_, ?_⟩, ?_⟩
  · rw [parts, List.append_assoc, List.singleton_append]
  · rw [isLast, past_append, past_cons, past_nil]
  · rw [parts, List.length_append, List.length_cons]
    omega

end Cursor

/-! ## Scans that go ahead -/

/-- The reasons for which a scan stops. They are about the tokens, the variables and the
operators, neither about an input line nor about the budget. -/
def Stop.isOfScan : Stop → Bool
  | failure (.input _ _) | outOfSteps => false
  | _ => true

theorem Stop.isOfScan_ofOperation (error : OperationError) :
    (Stop.ofOperation error).isOfScan = true := by
  cases error <;> rfl

namespace Scan

variable {α β : Type}

/-- A scan that passes tokens, whether it succeeds or stops. -/
structure GoesAhead (scan : Scan α) : Prop where
  succeeds : ∀ {cursor a after}, scan cursor = .ok a after → cursor.Passes after
  stops : ∀ {cursor reason after}, scan cursor = .error reason after → reason.isOfScan = true ∧
    cursor.Passes after

namespace GoesAhead

theorem bind {first : Scan α} {next : α → Scan β} (goes : GoesAhead first)
    (goesNext : ∀ a, GoesAhead (next a)) :
    GoesAhead (first >>= next) where
  succeeds succeeds := by
    obtain ⟨a, middle, begun, ended⟩ := bind_eq_ok.mp succeeds
    exact (goes.succeeds begun).trans ((goesNext a).succeeds ended)
  stops stops := by
    rcases bind_eq_error.mp stops with failed | ⟨a, middle, begun, ended⟩
    · exact goes.stops failed
    · obtain ⟨usual, passes⟩ := (goesNext a).stops ended
      exact ⟨usual, (goes.succeeds begun).trans passes⟩

theorem pure (a : α) : GoesAhead (pure a : Scan α) where
  succeeds {cursor _ _} succeeds := by
    cases succeeds
    exact .refl cursor
  stops stops := by cases stops

theorem expect (kind : Kind) (context : Text) : GoesAhead (expect kind context) where
  succeeds succeeds := by
    obtain ⟨parts, isLast, -⟩ := expect_eq_ok.mp succeeds
    exact Cursor.passes_of_cons parts isLast
  stops {cursor _ _} stops := by
    obtain ⟨rfl, rfl⟩ := expect_eq_error stops
    exact ⟨rfl, .refl cursor⟩

theorem advance : GoesAhead advance where
  succeeds succeeds := by
    obtain ⟨parts, isLast⟩ := advance_eq_ok.mp succeeds
    exact Cursor.passes_of_cons parts isLast
  stops {cursor _ _} stops := by
    obtain ⟨rfl, -, rfl⟩ := advance_eq_error stops
    exact ⟨rfl, .refl cursor⟩

theorem closing (opener closer : Kind) (what : String) :
    GoesAhead (closing opener closer what) where
  succeeds {cursor _ _} succeeds := by
    simp only [Scan.closing] at succeeds
    split at succeeds
    · cases succeeds
      exact .refl cursor
    · cases succeeds
  stops {cursor _ _} stops := by
    obtain ⟨rfl, rfl⟩ := closing_eq_error stops
    exact ⟨rfl, .refl cursor⟩

end GoesAhead

end Scan

namespace Expression

open Scan (GoesAhead)

variable {bindings : Bindings} {group operand : Scan Value}

theorem operate_goesAhead (result : Except OperationError Value) :
    GoesAhead (operate result) where
  succeeds succeeds := by
    obtain ⟨-, rfl⟩ := operate_eq_ok succeeds
    exact .refl _
  stops stops := by
    obtain ⟨error, -, rfl, rfl⟩ := operate_eq_error stops
    exact ⟨Stop.isOfScan_ofOperation error, .refl _⟩

theorem operator?_goesAhead (level : Kind → Option Operator) : GoesAhead (operator? level) where
  succeeds {cursor _ _} succeeds := by
    rcases operator?_eq_ok succeeds with ⟨-, rfl, -⟩ | ⟨_, token, -, -, parts, isLast⟩
    · exact .refl _
    · exact Cursor.passes_of_cons parts isLast
  stops stops := absurd stops operator?_ne_error

theorem chainFrom_goesAhead {level : Kind → Option Operator} (goes : GoesAhead operand)
    (bound : List Token) (left : Value) : GoesAhead (chainFrom level operand bound left) := by
  induction bound generalizing left with
  | nil => exact .pure left
  | cons _ bound ih =>
      refine (operator?_goesAhead level).bind fun found => ?_
      cases found with
      | none => exact .pure left
      | some operator =>
          exact goes.bind fun right => (operate_goesAhead _).bind fun value => ih value

theorem chain_goesAhead {level : Kind → Option Operator} (goes : GoesAhead operand) :
    GoesAhead (chain level operand) := by
  refine goes.bind fun left => ⟨fun succeeds => ?_, fun stops => ?_⟩
  · exact (chainFrom_goesAhead goes _ left).succeeds succeeds
  · exact (chainFrom_goesAhead goes _ left).stops stops

theorem compared_goesAhead (goes : GoesAhead operand) : GoesAhead (compared operand) := by
  refine goes.bind fun left => (operator?_goesAhead _).bind fun found => ?_
  cases found with
  | none => exact .pure left
  | some operator => exact goes.bind fun right => operate_goesAhead _

theorem primary_goesAhead (goes : GoesAhead group) : GoesAhead (primary bindings group) := by
  have grouped := goes.bind fun value =>
    (GoesAhead.expect .groupClose "to close parenthesized expression").bind fun _ => .pure value
  have word : ∀ (last : Option Token) (token : Token) (rest : List Token),
      Cursor.Passes ⟨last, token :: rest⟩ ⟨some token, rest⟩ :=
    fun _ _ _ => Cursor.passes_of_cons rfl rfl
  constructor
  · intro cursor value after succeeds
    obtain ⟨last, rest⟩ := cursor
    cases rest with
    | nil => cases succeeds
    | cons token rest =>
        refine (word last token rest).trans ?_
        simp only [primary] at succeeds
        split at succeeds
        · cases succeeds
          exact .refl _
        · split at succeeds
          · cases succeeds
            exact .refl _
          · cases succeeds
        · exact grouped.succeeds succeeds
        · cases succeeds
  · intro cursor reason after stops
    obtain ⟨last, rest⟩ := cursor
    cases rest with
    | nil =>
        cases stops
        exact ⟨rfl, .refl _⟩
    | cons token rest =>
        simp only [primary] at stops
        split at stops
        · cases stops
        · split at stops
          · cases stops
          · cases stops
            exact ⟨rfl, word last token rest⟩
        · obtain ⟨usual, passes⟩ := grouped.stops stops
          exact ⟨usual, (word last token rest).trans passes⟩
        · cases stops
          exact ⟨rfl, .refl _⟩

/-- What holds of groups passes from tier to tier. -/
theorem scanner_goesAhead (goes : GoesAhead group) :
    ∀ tier : Tier, GoesAhead (scanner bindings group tier) := by
  have product : GoesAhead (multiplicative bindings group) :=
    chain_goesAhead (primary_goesAhead goes)
  have sum : GoesAhead (additive bindings group) := chain_goesAhead product
  have comparison : GoesAhead (comparison bindings group) := compared_goesAhead sum
  intro tier
  match tier with
  | .primary => exact primary_goesAhead goes
  | .chain .product => exact product
  | .chain .sum => exact sum
  | .comparison => exact comparison
  | .chain .logic => exact chain_goesAhead comparison

theorem inside_goesAhead (bindings : Bindings) (depth : Nat) :
    GoesAhead (inside bindings depth) := by
  induction depth with
  | zero =>
      refine ⟨fun succeeds => ?_, fun {cursor _ _} stops => ?_⟩
      · cases succeeds
      · cases stops
        exact ⟨rfl, .refl cursor⟩
  | succ depth ih => exact scanner_goesAhead ih (.chain .logic)

/-- **Evaluation goes ahead**, whether it succeeds or stops. -/
theorem evaluate_goesAhead (limit : Nat) (bindings : Bindings) :
    GoesAhead (evaluate limit bindings) :=
  scanner_goesAhead (inside_goesAhead bindings limit) (.chain .logic)

/-! ## Chains come to an end -/

/-- What a chain comes to that goes on from a value as long as operators follow. Nothing bounds
their number. -/
inductive ComesTo (level : Kind → Option Operator) (operand : Scan Value) :
    Value → Cursor → EStateM.Result Stop Cursor Value → Prop where
  | ended {left : Value} {cursor : Cursor}
      (unsigned : operator? level cursor = .ok none cursor) :
      ComesTo level operand left cursor (.ok left cursor)
  | stopped {left : Value} {cursor signed after : Cursor} {operator : Operator} {reason : Stop}
      (passed : operator? level cursor = .ok (some operator) signed)
      (stops : operand signed = .error reason after) :
      ComesTo level operand left cursor (.error reason after)
  | refused {left right : Value} {cursor signed after : Cursor} {operator : Operator}
      {error : OperationError} (passed : operator? level cursor = .ok (some operator) signed)
      (read : operand signed = .ok right after) (applied : operator left right = .error error) :
      ComesTo level operand left cursor (.error (.ofOperation error) after)
  | extended {left right value : Value} {cursor signed after : Cursor} {operator : Operator}
      {result : EStateM.Result Stop Cursor Value}
      (passed : operator? level cursor = .ok (some operator) signed)
      (read : operand signed = .ok right after) (applied : operator left right = .ok value)
      (more : ComesTo level operand value after result) :
      ComesTo level operand left cursor result

/-- **A chain comes to an end**, at every place and from every value, because its operands
advance. The induction is on the number of tokens ahead. -/
theorem chainOn_comesTo {level : Kind → Option Operator} (advances : Advances operand)
    (left : Value) (cursor : Cursor) :
    ComesTo level operand left cursor (chainOn level operand left cursor) := by
  induction ahead : cursor.rest.length using Nat.strongRecOn generalizing left cursor with
  | ind count ih =>
      cases looked : operator? level cursor with
      | error reason after => exact absurd looked operator?_ne_error
      | ok found signed =>
          rcases operator?_eq_ok looked with
            ⟨rfl, rfl, none⟩ | ⟨operator, token, rfl, known, parts, isLast⟩
          · rw [chainOn_of_none none]
            exact .ended looked
          · obtain ⟨last, rest⟩ := cursor
            obtain rfl : rest = token :: signed.rest := parts
            rw [chainOn_of_some advances known]
            obtain ⟨last', rest'⟩ := signed
            cases isLast
            cases read : operand ⟨some token, rest'⟩ with
            | error reason after =>
                rw [bind_of_error read]
                exact .stopped looked read
            | ok right after =>
                rw [bind_of_ok read]
                cases applied : operator left right with
                | error error =>
                    exact .refused looked read applied
                | ok value =>
                    have shorter := advances _ _ _ read
                    refine .extended looked read applied (ih _ ?_ value after rfl)
                    rw [← ahead]
                    simp only [List.length_cons]
                    simp only at shorter
                    omega

end Expression

/-! ## Nesting comes to an end -/

/-- Two scans that do the same at the places with no more than a number of tokens ahead. -/
def Scan.AgreeWithin {α : Type} (count : Nat) (scan other : Scan α) : Prop :=
  ∀ cursor : Cursor, cursor.rest.length ≤ count → scan cursor = other cursor

theorem Scan.AgreeWithin.bind {α β : Type} {count : Nat} {first first' : Scan α}
    {next next' : α → Scan β} (agree : AgreeWithin count first first') (goes : GoesAhead first)
    (agreeNext : ∀ a, AgreeWithin count (next a) (next' a)) :
    AgreeWithin count (first >>= next) (first' >>= next') := by
  intro cursor fits
  have same := agree cursor fits
  cases scanned : first cursor with
  | ok a after =>
      have shorter := (goes.succeeds scanned).suffix.length_le
      rw [bind_of_ok scanned, bind_of_ok (same ▸ scanned)]
      exact agreeNext a after (Nat.le_trans shorter fits)
  | error reason after => rw [bind_of_error scanned, bind_of_error (same ▸ scanned)]

namespace Expression

open Scan (GoesAhead AgreeWithin)

variable {bindings : Bindings} {group group' operand operand' : Scan Value} {count : Nat}

theorem chainFrom_agree {level : Kind → Option Operator}
    (agree : AgreeWithin count operand operand') (goes : GoesAhead operand) (bound : List Token)
    (left : Value) :
    AgreeWithin count (chainFrom level operand bound left)
      (chainFrom level operand' bound left) := by
  induction bound generalizing left with
  | nil => exact fun _ _ => rfl
  | cons _ bound ih =>
      refine .bind (fun _ _ => rfl) (operator?_goesAhead level) fun found => ?_
      cases found with
      | none => exact fun _ _ => rfl
      | some operator =>
          exact agree.bind goes fun right => .bind (fun _ _ => rfl) (operate_goesAhead _)
            fun value => ih value

theorem chain_agree {level : Kind → Option Operator}
    (agree : AgreeWithin count operand operand') (goes : GoesAhead operand) :
    AgreeWithin count (chain level operand) (chain level operand') :=
  agree.bind goes fun left cursor fits => chainFrom_agree agree goes cursor.rest
    left cursor fits

theorem compared_agree (agree : AgreeWithin count operand operand') (goes : GoesAhead operand) :
    AgreeWithin count (compared operand) (compared operand') := by
  refine agree.bind goes fun left => .bind (fun _ _ => rfl) (operator?_goesAhead _)
    fun found => ?_
  cases found with
  | none => exact fun _ _ => rfl
  | some operator => exact agree.bind goes fun right _ _ => rfl

/-- The opener of a group is passed before what stands inside it. -/
theorem primary_agree
    (agree : ∀ cursor, cursor.rest.length < count → group cursor = group' cursor) :
    AgreeWithin count (primary bindings group) (primary bindings group') := by
  rintro ⟨last, rest⟩ fits
  cases rest with
  | nil => rfl
  | cons token rest =>
      have same : group ⟨some token, rest⟩ = group' ⟨some token, rest⟩ := agree _ fits
      simp only [primary, bind, EStateM.bind, same]

theorem scanner_agree (goes : GoesAhead group)
    (agree : ∀ cursor, cursor.rest.length < count → group cursor = group' cursor) :
    ∀ tier : Tier,
      AgreeWithin count (scanner bindings group tier) (scanner bindings group' tier) := by
  have goesOn : ∀ tier : Tier, GoesAhead (scanner bindings group tier) := scanner_goesAhead goes
  have primary : AgreeWithin count (primary bindings group) (primary bindings group') :=
    primary_agree agree
  have product :
      AgreeWithin count (multiplicative bindings group) (multiplicative bindings group') :=
    chain_agree primary (goesOn .primary)
  have sum : AgreeWithin count (additive bindings group) (additive bindings group') :=
    chain_agree product (goesOn (.chain .product))
  have comparison :
      AgreeWithin count (comparison bindings group) (comparison bindings group') :=
    compared_agree sum (goesOn (.chain .sum))
  intro tier
  match tier with
  | .primary => exact primary
  | .chain .product => exact product
  | .chain .sum => exact sum
  | .comparison => exact comparison
  | .chain .logic => exact chain_agree comparison (goesOn .comparison)

/-- **Nesting comes to an end**: a limit on the nesting that is not below the number of tokens
ahead is never reached, so all such limits do the same. -/
theorem scanner_limit (bindings : Bindings) {depth depth' : Nat} (enough : count ≤ depth)
    (enough' : count ≤ depth') :
    ∀ tier : Tier, AgreeWithin count (scanner bindings (inside bindings depth) tier)
      (scanner bindings (inside bindings depth') tier) := by
  induction count generalizing depth depth' with
  | zero =>
      exact scanner_agree (inside_goesAhead bindings depth) fun _ never =>
        absurd never (Nat.not_lt_zero _)
  | succ count ih =>
      refine scanner_agree (inside_goesAhead bindings depth) fun cursor fits => ?_
      cases depth with
      | zero => exact absurd enough (Nat.not_succ_le_zero count)
      | succ depth =>
          cases depth' with
          | zero => exact absurd enough' (Nat.not_succ_le_zero count)
          | succ depth' =>
              exact ih (Nat.le_of_succ_le_succ enough) (Nat.le_of_succ_le_succ enough')
                (.chain .logic) cursor (Nat.le_of_lt_succ fits)

end Expression

end ToonScript
