import ToonScript.Machine.Cursor

/-!
# Balanced brackets

The machine finds the end of a bracket by counting: openers count up, closers count down, and
the scan ends where the count comes to zero. Here a stretch of tokens is balanced when it holds
as many openers as closers and no part at its front holds more closers than openers.

A balanced stretch does not disturb a scan (`closingFrom_append_of_balanced`), and a scan ends
behind a closer exactly when the tokens before that closer are balanced
(`closing?_eq_some_iff`).
-/

set_option autoImplicit false

namespace ToonScript

open Token (Kind)

/-! ## Counting brackets -/

/-- What a token of a kind adds to the number of open brackets. -/
def Token.Kind.weight (opener closer kind : Kind) : Int :=
  if kind = opener then 1 else if kind = closer then -1 else 0

/-- The openers of a list of tokens less its closers. -/
def net (opener closer : Kind) : List Token → Int
  | [] => 0
  | token :: rest => Kind.weight opener closer token.kind + net opener closer rest

/-- As many openers as closers, and nowhere from the front more closers than openers. -/
structure Balanced (opener closer : Kind) (tokens : List Token) : Prop where
  net_eq : net opener closer tokens = 0
  net_take : ∀ count, 0 ≤ net opener closer (tokens.take count)

/-- Longer parts from the front than the whole add nothing. -/
instance (opener closer : Kind) (tokens : List Token) :
    Decidable (Balanced opener closer tokens) :=
  decidable_of_iff (net opener closer tokens = 0 ∧
      ∀ count < tokens.length + 1, 0 ≤ net opener closer (tokens.take count)) <| by
    constructor
    · rintro ⟨total, parts⟩
      refine ⟨total, fun count => ?_⟩
      by_cases within : count < tokens.length + 1
      · exact parts count within
      · have whole : tokens.take count = tokens := List.take_of_length_le (by omega)
        exact Int.le_of_eq (by rw [whole, total])
    · exact fun balanced => ⟨balanced.net_eq, fun count _ => balanced.net_take count⟩

/-- No token of a list is an opener or a closer. -/
def Neutral (opener closer : Kind) (tokens : List Token) : Prop :=
  ∀ token ∈ tokens, token.kind ≠ opener ∧ token.kind ≠ closer

variable {opener closer : Kind}

@[simp] theorem net_nil : net opener closer [] = 0 := rfl

@[simp] theorem net_cons (token : Token) (tokens : List Token) :
    net opener closer (token :: tokens) =
      Kind.weight opener closer token.kind + net opener closer tokens := rfl

@[simp] theorem net_append (front back : List Token) :
    net opener closer (front ++ back) = net opener closer front + net opener closer back := by
  induction front with
  | nil => simp
  | cons token front ih => simp only [List.cons_append, net_cons, ih, Int.add_assoc]

theorem weight_opener : Kind.weight opener closer opener = 1 := if_pos rfl

theorem weight_closer (distinct : opener ≠ closer) : Kind.weight opener closer closer = -1 := by
  simp only [Kind.weight, distinct.symm, ↓reduceIte]

theorem weight_other {kind : Kind} (notOpener : kind ≠ opener) (notCloser : kind ≠ closer) :
    Kind.weight opener closer kind = 0 := by
  simp only [Kind.weight, notOpener, notCloser, ↓reduceIte]

theorem neg_one_le_weight (opener closer kind : Kind) :
    -1 ≤ Kind.weight opener closer kind := by
  unfold Kind.weight
  split
  · decide
  · split <;> decide

/-- Only a closer counts down. -/
theorem eq_closer_of_weight_neg {kind : Kind} (down : Kind.weight opener closer kind < 0) :
    kind = closer := by
  unfold Kind.weight at down
  split at down
  · omega
  · split at down
    · assumption
    · omega

theorem Neutral.net_eq_zero {tokens : List Token} (neutral : Neutral opener closer tokens) :
    net opener closer tokens = 0 := by
  induction tokens with
  | nil => rfl
  | cons token tokens ih =>
      obtain ⟨notOpener, notCloser⟩ := neutral token (List.mem_cons_self ..)
      rw [net_cons, weight_other notOpener notCloser, Int.zero_add]
      exact ih fun other member => neutral other (List.mem_cons_of_mem _ member)

/-! ## Balanced stretches -/

namespace Balanced

theorem nil : Balanced opener closer [] where
  net_eq := rfl
  net_take count := by simp

theorem append {front back : List Token} (balancedFront : Balanced opener closer front)
    (balancedBack : Balanced opener closer back) : Balanced opener closer (front ++ back) where
  net_eq := by rw [net_append, balancedFront.net_eq, balancedBack.net_eq, Int.add_zero]
  net_take count := by
    rw [List.take_append, net_append]
    exact Int.add_nonneg (balancedFront.net_take _) (balancedBack.net_take _)

theorem of_neutral {tokens : List Token} (neutral : Neutral opener closer tokens) :
    Balanced opener closer tokens where
  net_eq := neutral.net_eq_zero
  net_take count := by
    have front : Neutral opener closer (tokens.take count) :=
      fun token member => neutral token (List.mem_of_mem_take member)
    exact Int.le_of_eq front.net_eq_zero.symm

theorem single {token : Token} (notOpener : token.kind ≠ opener)
    (notCloser : token.kind ≠ closer) :
    Balanced opener closer [token] := by
  apply of_neutral
  intro other member
  rw [List.mem_singleton.mp member]
  exact ⟨notOpener, notCloser⟩

/-- A balanced stretch between an opener and a closer is balanced with them. -/
theorem wrap {left right : Token} {inner : List Token} (distinct : opener ≠ closer)
    (opens : left.kind = opener) (closes : right.kind = closer)
    (balanced : Balanced opener closer inner) :
    Balanced opener closer (left :: (inner ++ [right])) where
  net_eq := by
    simp only [net_cons, net_append, net_nil, opens, closes, weight_opener,
      weight_closer distinct, balanced.net_eq]
    decide
  net_take count := by
    cases count with
    | zero => simp
    | succ count =>
        have inside := balanced.net_take count
        have last : -1 ≤ net opener closer ([right].take (count - inner.length)) := by
          cases count - inner.length with
          | zero => simp
          | succ _ => simpa using neg_one_le_weight opener closer right.kind
        rw [List.take_succ_cons, List.take_append, net_cons, net_append, opens, weight_opener]
        omega

end Balanced

/-! ## The scan for the closer -/

namespace Cursor

/-- The count after one more token, while it is positive. -/
theorem count_eq (opener closer kind : Kind) {balance : Nat} (positive : 0 < balance) :
    ((if kind = opener then balance + 1 else if kind =
      closer then balance - 1 else balance : Nat) : Int) =
      balance + Kind.weight opener closer kind := by
  unfold Kind.weight
  split
  · simp
  · split <;> omega

/-- A stretch that keeps the count positive is passed, and the scan goes on with what the count
came to. -/
theorem closingFrom_append {inner : List Token} (rest : List Token) :
    ∀ {balance : Nat}, (∀ count, 0 < (balance : Int) + net opener closer (inner.take count)) →
      ∃ later : Nat, (later : Int) = balance + net opener closer inner ∧
        closingFrom opener closer balance (inner ++ rest) =
          closingFrom opener closer later rest := by
  induction inner with
  | nil => exact fun {balance} _ => ⟨balance, by simp, rfl⟩
  | cons token inner ih =>
      intro balance above
      have positive : 0 < balance := by simpa using above 0
      have counted := count_eq opener closer token.kind positive
      generalize reached : (if token.kind = opener then balance + 1
        else if token.kind = closer then balance - 1 else balance) = balance' at counted
      have above' : ∀ count, 0 < (balance' : Int) + net opener closer (inner.take count) := by
        intro count
        have := above (count + 1)
        rw [List.take_succ_cons, net_cons] at this
        omega
      obtain ⟨later, total, same⟩ := ih above'
      refine ⟨later, by rw [net_cons]; omega, ?_⟩
      have going : balance' ≠ 0 := by
        have := above' 0
        simp at this
        omega
      simp only [List.cons_append, closingFrom, reached, going, ↓reduceIte]
      exact same

/-- Where a scan ends: behind the first token that brings the count to zero. -/
theorem of_closingFrom_eq_some {tokens : List Token} {after : Cursor} :
    ∀ {balance : Nat}, 0 < balance → closingFrom opener closer balance tokens = some after →
      ∃ inner token, tokens = inner ++ token :: after.rest ∧ after.last = some token ∧
        (∀ count, 0 < (balance : Int) + net opener closer (inner.take count)) ∧
        (balance : Int) + net opener closer inner + Kind.weight opener closer token.kind =
          0 := by
  induction tokens with
  | nil => exact fun _ found => by cases found
  | cons token tokens ih =>
      intro balance positive found
      have counted := count_eq opener closer token.kind positive
      simp only [closingFrom] at found
      generalize (if token.kind = opener then balance + 1
        else if token.kind = closer then balance - 1 else balance) = balance' at counted found
      split at found
      · next zero =>
          cases found
          refine ⟨[], token, rfl, rfl, ?_, ?_⟩
          · intro count
            simpa using positive
          · rw [net_nil]
            omega
      · next going =>
          obtain ⟨inner, last, rfl, isLast, above, total⟩ := ih (by omega) found
          refine ⟨token :: inner, last, rfl, isLast, ?_, ?_⟩
          · intro count
            cases count with
            | zero => simpa using positive
            | succ count =>
                have := above count
                rw [List.take_succ_cons, net_cons]
                omega
          · rw [net_cons]
            omega

/-- A balanced stretch does not disturb a scan. -/
theorem closingFrom_append_of_balanced {inner : List Token} (rest : List Token) {balance : Nat}
    (positive : 0 < balance) (balanced : Balanced opener closer inner) :
    closingFrom opener closer balance (inner ++ rest) =
      closingFrom opener closer balance rest := by
  have above : ∀ count, 0 < (balance : Int) + net opener closer (inner.take count) := by
    intro count
    have := balanced.net_take count
    omega
  obtain ⟨later, total, same⟩ := closingFrom_append rest above
  rw [balanced.net_eq] at total
  obtain rfl : later = balance := by omega
  exact same

/-- More tokens behind the closer do not change where it is. -/
theorem closingFrom_append_of_some {tokens : List Token} (more : List Token) {balance : Nat}
    {after : Cursor} (found : closingFrom opener closer balance tokens = some after) :
    closingFrom opener closer balance (tokens ++ more) =
      some ⟨after.last, after.rest ++ more⟩ := by
  induction tokens generalizing balance with
  | nil => cases found
  | cons token tokens ih =>
      rw [closingFrom] at found
      rw [List.cons_append, closingFrom]
      generalize (if token.kind = opener then balance + 1
        else if token.kind = closer then balance - 1 else balance) = balance' at found ⊢
      by_cases zero : balance' = 0
      · rw [if_pos zero] at found ⊢
        cases found
        rfl
      · rw [if_neg zero] at found ⊢
        exact ih found

/-- **The scan finds exactly the matching closer.** It ends behind a closer exactly when the
tokens before that closer are balanced. -/
theorem closing?_eq_some_iff {cursor after : Cursor} (distinct : opener ≠ closer) :
    cursor.closing? opener closer = some after ↔
      ∃ inner token, cursor.rest = inner ++ token :: after.rest ∧ after.last = some token ∧
        Balanced opener closer inner ∧ token.kind = closer := by
  constructor
  · intro found
    obtain ⟨inner, token, parts, isLast, above, total⟩ :=
      of_closingFrom_eq_some Nat.one_pos found
    have whole := above inner.length
    rw [List.take_length] at whole
    have bound := neg_one_le_weight opener closer token.kind
    have down : Kind.weight opener closer token.kind < 0 := by omega
    refine ⟨inner, token, parts, isLast, ⟨by omega, ?_⟩, eq_closer_of_weight_neg down⟩
    intro count
    have := above count
    omega
  · rintro ⟨inner, token, parts, isLast, balanced, closes⟩
    obtain ⟨last, rest⟩ := after
    cases isLast
    rw [closing?, parts, closingFrom_append_of_balanced _ Nat.one_pos balanced]
    simp only [closingFrom, closes, distinct.symm, ↓reduceIte, Nat.sub_self]

end Cursor

end ToonScript
