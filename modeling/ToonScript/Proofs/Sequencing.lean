import ToonScript.Machine.Cursor

/-!
# Sequences of computations

A scan moves a cursor, and an execution changes a machine. Both carry a state, and both keep the
state they got to when they stop. The first lemmas say when a sequence of two computations
succeeds and what it gives, so that later proofs never unfold the sequencing itself. The rest
gives the same account of the primitive scans: passing a token and passing a token of a kind.
-/

set_option autoImplicit false

namespace ToonScript

open Token (Kind)

instance decidableEqResult {ε σ α : Type} [DecidableEq ε] [DecidableEq σ] [DecidableEq α] :
    DecidableEq (EStateM.Result ε σ α)
  | .ok a start, .ok b after => decidable_of_iff (a = b ∧ start = after) (by simp)
  | .error stop start, .error stop' after =>
      decidable_of_iff (stop = stop' ∧ start = after) (by simp)
  | .ok _ _, .error _ _ | .error _ _, .ok _ _ => isFalse nofun

section Sequence

variable {ε σ α β : Type} {first : EStateM ε σ α} {next : α → EStateM ε σ β}
  {start middle after : σ}

theorem bind_of_ok {a : α} (succeeds : first start = .ok a middle) :
    (first >>= next) start = next a middle := by
  show EStateM.bind first next start = next a middle
  simp only [EStateM.bind, succeeds]

theorem bind_of_error {stop : ε} (stops : first start = .error stop middle) :
    (first >>= next) start = .error stop middle := by
  show EStateM.bind first next start = .error stop middle
  simp only [EStateM.bind, stops]

/-- A sequence succeeds exactly when its first part does and its second part goes on from there.
-/
theorem bind_eq_ok {b : β} :
    (first >>= next) start = .ok b after ↔
      ∃ a middle, first start = .ok a middle ∧ next a middle = .ok b after := by
  constructor
  · intro succeeds
    cases begun : first start with
    | ok a middle =>
        rw [bind_of_ok begun] at succeeds
        exact ⟨a, middle, rfl, succeeds⟩
    | error stop middle =>
        rw [bind_of_error begun] at succeeds
        cases succeeds
  · rintro ⟨a, middle, begun, ended⟩
    rw [bind_of_ok begun, ended]

/-- A sequence stops in its first part, or its first part succeeds and its second part stops. -/
theorem bind_eq_error {stop : ε} :
    (first >>= next) start = .error stop after ↔
      first start = .error stop after ∨
        ∃ a middle, first start = .ok a middle ∧ next a middle = .error stop after := by
  constructor
  · intro stops
    cases begun : first start with
    | ok a middle =>
        rw [bind_of_ok begun] at stops
        exact .inr ⟨a, middle, rfl, stops⟩
    | error stop' middle =>
        rw [bind_of_error begun] at stops
        cases stops
        exact .inl rfl
  · rintro (begun | ⟨a, middle, begun, ended⟩)
    · rw [bind_of_error begun]
    · rw [bind_of_ok begun, ended]

/-- Two sequences with the same first part agree if their second parts agree where the first
succeeds. -/
theorem bind_congr_of_ok {next' : α → EStateM ε σ β}
    (agree : ∀ a middle, first start = .ok a middle → next a middle = next' a middle) :
    (first >>= next) start = (first >>= next') start := by
  cases begun : first start with
  | ok a middle => rw [bind_of_ok begun, bind_of_ok begun, agree a middle begun]
  | error stop middle => rw [bind_of_error begun, bind_of_error begun]

/-- A sequence depends on the state only through its first part. -/
theorem bind_congr_of_eq {start' : σ} (same : first start = first start') :
    (first >>= next) start = (first >>= next) start' := by
  cases begun : first start with
  | ok a middle => rw [bind_of_ok begun, bind_of_ok (same ▸ begun)]
  | error stop middle => rw [bind_of_error begun, bind_of_error (same ▸ begun)]

theorem pure_eq_ok {a b : α} :
    (pure a : EStateM ε σ α) start = .ok b after ↔ a = b ∧ start = after := by
  show EStateM.Result.ok a start = .ok b after ↔ _
  simp

theorem get_bind (next : σ → EStateM ε σ α) : (get >>= next) start = next start start := rfl

end Sequence

/-! ## Passing tokens -/

/-- The token just passed after a list of tokens. -/
def Cursor.past : Option Token → List Token → Option Token
  | last, [] => last
  | _, token :: tokens => past (some token) tokens

@[simp] theorem Cursor.past_nil (last : Option Token) : past last [] = last := rfl

@[simp] theorem Cursor.past_cons (last : Option Token) (token : Token) (tokens : List Token) :
    past last (token :: tokens) = past (some token) tokens := rfl

@[simp] theorem Cursor.past_append (front back : List Token) (last : Option Token) :
    past last (front ++ back) = past (past last front) back := by
  induction front generalizing last with
  | nil => rfl
  | cons token front ih => exact ih (some token)

namespace Scan

variable {cursor after : Cursor} {token : Token} {kind : Kind}

theorem advance_eq_ok :
    advance cursor = .ok token after ↔ cursor.rest = token :: after.rest ∧
      after.last = some token := by
  obtain ⟨last, rest⟩ := cursor
  obtain ⟨last', rest'⟩ := after
  cases rest with
  | nil =>
      constructor
      · intro succeeds
        cases succeeds
      · rintro ⟨parts, -⟩
        cases parts
  | cons first rest =>
      show EStateM.Result.ok first (⟨some first, rest⟩ : Cursor) = .ok token ⟨last', rest'⟩ ↔ _
      simp only [EStateM.Result.ok.injEq, Cursor.mk.injEq, List.cons.injEq]
      constructor
      · rintro ⟨rfl, rfl, rfl⟩
        exact ⟨⟨rfl, rfl⟩, rfl⟩
      · rintro ⟨⟨rfl, rfl⟩, rfl⟩
        exact ⟨rfl, rfl, rfl⟩

theorem expect_eq_ok {context : Text} :
    expect kind context cursor = .ok token after ↔
      cursor.rest = token :: after.rest ∧ after.last = some token ∧ token.kind = kind := by
  obtain ⟨last, rest⟩ := cursor
  obtain ⟨last', rest'⟩ := after
  cases rest with
  | nil =>
      constructor
      · intro succeeds
        cases succeeds
      · rintro ⟨parts, -⟩
        cases parts
  | cons first rest =>
      by_cases wanted : first.kind = kind
      · simp only [expect, wanted, ↓reduceIte, EStateM.Result.ok.injEq, Cursor.mk.injEq,
          List.cons.injEq]
        constructor
        · rintro ⟨rfl, rfl, rfl⟩
          exact ⟨⟨rfl, rfl⟩, rfl, wanted⟩
        · rintro ⟨⟨rfl, rfl⟩, rfl, -⟩
          exact ⟨rfl, rfl, rfl⟩
      · simp only [expect, wanted, ↓reduceIte]
        constructor
        · intro succeeds
          cases succeeds
        · rintro ⟨parts, -, same⟩
          cases parts
          exact absurd same wanted

/-- Passing a token stops only at the end of the tokens. -/
theorem advance_eq_error {reason : Stop} (stops : advance cursor = .error reason after) :
    reason = .failure (.structural .endOfInput none) ∧ cursor.rest = [] ∧ cursor = after := by
  obtain ⟨last, rest⟩ := cursor
  cases rest with
  | nil =>
      cases stops
      exact ⟨rfl, rfl, rfl⟩
  | cons first rest => cases stops

/-- A token that is not of the wanted kind is not passed, and the failure points at it. -/
theorem expect_eq_error {context : Text} {reason : Stop}
    (stops : expect kind context cursor = .error reason after) :
    reason = .failure (.structural (.expected kind context) cursor.rest.head?) ∧
      cursor = after := by
  obtain ⟨last, rest⟩ := cursor
  cases rest with
  | nil =>
      cases stops
      exact ⟨rfl, rfl⟩
  | cons first rest =>
      simp only [expect] at stops
      split at stops
      · cases stops
      · cases stops
        exact ⟨rfl, rfl⟩

/-- A bracket that is never closed stops where it was opened. -/
theorem closing_eq_error {opener closer : Kind} {what : String} {reason : Stop}
    (stops : closing opener closer what cursor = .error reason after) :
    reason = .failure (cursor.unmatched opener what) ∧ cursor = after := by
  simp only [closing] at stops
  split at stops
  · cases stops
  · cases stops
    exact ⟨rfl, rfl⟩

theorem expect_of_kind (wanted : token.kind = kind) (context : Text) (last : Option Token)
    (rest : List Token) :
    expect kind context ⟨last, token :: rest⟩ = .ok token ⟨some token, rest⟩ :=
  expect_eq_ok.mpr ⟨rfl, rfl, wanted⟩

end Scan

end ToonScript
