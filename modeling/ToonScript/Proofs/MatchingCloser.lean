import ToonScript.Proofs.Grammar
import ToonScript.Proofs.Balance
import ToonScript.Proofs.Primitive

/-!
# The matching closer

The machine looks for the end of a bracket from the place behind its opener. A closer matches
the opener if the tokens between them are balanced. There is one such closer at most, the scan
returns the place behind it, and where there is none the scan fails and points at the token
before its start (`Exec.closing_exact`).

A scan that starts later, behind a balanced stretch, ends at the same place. So the rest of a
block that was interrupted between two statements is passed over by a scan from there, although
the block began earlier.
-/

set_option autoImplicit false

namespace ToonScript

open Token (Kind)

/-- From one index of a program up to another one stands a balanced stretch, and one closer
behind it. -/
def Closes (opener closer : Kind) (tokens : List Token) (start stop : Nat) : Prop :=
  stop ≤ tokens.length ∧ ∃ inner token, (tokens.take stop).drop start = inner ++ [token] ∧
    Balanced opener closer inner ∧ token.kind = closer

variable {opener closer : Kind} {tokens : List Token} {start stop : Nat}

/-- The tokens between two indices are the first ones ahead of the first index. -/
theorem take_drop_eq_iff {span : List Token} (some : span ≠ []) :
    stop ≤ tokens.length ∧ (tokens.take stop).drop start = span ↔
      span <+: tokens.drop start ∧ stop = start + span.length := by
  have positive := List.length_pos_iff.mpr some
  rw [List.drop_take]
  constructor
  · rintro ⟨bounded, rfl⟩
    refine ⟨List.take_prefix _ _, ?_⟩
    rw [List.length_take, List.length_drop] at positive ⊢
    omega
  · rintro ⟨ahead, rfl⟩
    have short := ahead.length_le
    rw [List.length_drop] at short
    rw [Nat.add_sub_cancel_left, ← List.prefix_iff_eq_take.mp ahead]
    exact ⟨by omega, rfl⟩

theorem closes_iff : Closes opener closer tokens start stop ↔
    ∃ inner token ahead, tokens.drop start = inner ++ token :: ahead ∧
      stop = start + (inner.length + 1) ∧
      Balanced opener closer inner ∧ token.kind = closer := by
  constructor
  · rintro ⟨bounded, inner, token, between, balanced, closes⟩
    obtain ⟨⟨ahead, parts⟩, rfl⟩ := (take_drop_eq_iff (by simp)).mp ⟨bounded, between⟩
    refine ⟨inner, token, ahead, ?_, by simp, balanced, closes⟩
    rw [← parts, List.append_assoc, List.singleton_append]
  · rintro ⟨inner, token, ahead, parts, rfl, balanced, closes⟩
    have span : inner ++ [token] <+: tokens.drop start := ⟨ahead, by simp [parts]⟩
    have spanned : start + (inner.length + 1) = start + (inner ++ [token]).length := by
      rw [List.length_append, List.length_singleton]
    obtain ⟨bounded, between⟩ := (take_drop_eq_iff (by simp)).mpr ⟨span, spanned⟩
    exact ⟨bounded, inner, token, between, balanced, closes⟩

namespace Cursor

/-- Behind a token the index is not beyond the end. -/
theorem le_length_of_last {index : Nat} {token : Token}
    (isLast : (atIndex tokens index).last = some token) :
    index ≤ tokens.length := by
  refine Nat.le_of_not_lt fun beyond => ?_
  have nothing : (atIndex tokens index).last = none := by
    rw [atIndex, if_neg (by omega), List.getElem?_eq_none (by omega)]
  rw [nothing] at isLast
  cases isLast

/-- Different indices up to the end of a program are different places. -/
theorem atIndex_inj {index other : Nat} (within : index ≤ tokens.length)
    (within' : other ≤ tokens.length) (same : atIndex tokens index = atIndex tokens other) :
    index = other := by
  have lengths := congrArg (fun cursor : Cursor => cursor.rest.length) same
  simp only [atIndex, List.length_drop] at lengths
  omega

/-- The place behind a closer, by its index. -/
theorem behind_atIndex {inner ahead : List Token} {token : Token}
    (parts : tokens.drop start = inner ++ token :: ahead) :
    (⟨some token, ahead⟩ : Cursor) = atIndex tokens (start + (inner.length + 1)) := by
  have spanned : tokens.drop start = (inner ++ [token]) ++ ahead := by
    rw [parts, List.append_assoc, List.singleton_append]
  have place := past_atIndex _ start spanned
  rwa [past_append, past_cons, past_nil, List.length_append, List.length_singleton] at place

/-- The scan from an index returns the places behind matching closers. -/
theorem closing?_atIndex (distinct : opener ≠ closer) :
    (atIndex tokens start).closing? opener closer = some (atIndex tokens stop) ↔
      Closes opener closer tokens start stop := by
  rw [closing?_eq_some_iff distinct, closes_iff]
  constructor
  · rintro ⟨inner, token, parts, isLast, balanced, closes⟩
    have bounded := le_length_of_last isLast
    have place : atIndex tokens stop = atIndex tokens (start + (inner.length + 1)) := by
      rw [← behind_atIndex parts, ← isLast]
    have bounded' : start + (inner.length + 1) ≤ tokens.length := by
      rw [place] at isLast
      exact le_length_of_last isLast
    exact ⟨inner, token, _, parts, atIndex_inj bounded bounded' place, balanced, closes⟩
  · rintro ⟨inner, token, ahead, parts, rfl, balanced, closes⟩
    rw [← behind_atIndex parts]
    exact ⟨inner, token, parts, rfl, balanced, closes⟩

theorem closing?_atIndex_eq_none (distinct : opener ≠ closer) :
    (atIndex tokens start).closing? opener closer = none ↔ ¬∃ stop,
      Closes opener closer tokens start stop := by
  constructor
  · rintro unclosed ⟨stop, closes⟩
    rw [(closing?_atIndex distinct).mpr closes] at unclosed
    cases unclosed
  · intro never
    cases found : (atIndex tokens start).closing? opener closer with
    | none => rfl
    | some after =>
        obtain ⟨inner, token, parts, isLast, balanced, closes⟩ :=
          (closing?_eq_some_iff distinct).mp found
        exact absurd ⟨_,
          closes_iff.mpr ⟨inner, token, after.rest, parts, rfl, balanced, closes⟩⟩ never

end Cursor

/-- There is one matching closer at most. -/
theorem Closes.unique (distinct : opener ≠ closer) {stop' : Nat}
    (closes : Closes opener closer tokens start stop)
    (closes' : Closes opener closer tokens start stop') : stop = stop' := by
  have found := (Cursor.closing?_atIndex distinct).mpr closes
  rw [(Cursor.closing?_atIndex distinct).mpr closes'] at found
  exact Cursor.atIndex_inj closes.1 closes'.1 (Option.some.inj found).symm

/-- Behind a balanced stretch a scan ends where it would have ended from the front of the
stretch. -/
theorem Cursor.closing?_behind {inner ahead : List Token}
    (balanced : Balanced opener closer inner) (parts : tokens.drop start = inner ++ ahead) :
    (atIndex tokens start).closing? opener closer =
      (atIndex tokens (start + inner.length)).closing? opener closer := by
  have later : tokens.drop (start + inner.length) = ahead := by
    rw [← List.drop_drop, parts, List.drop_left]
  rw [closing?, closing?, atIndex, atIndex, parts, later,
    closingFrom_append_of_balanced ahead Nat.one_pos balanced]

namespace Exec

/-- **The scan finds exactly the matching closer.** From an index of a program it returns
another index exactly if a balanced stretch and one closer stand between them; there is one such
index at most, and the scan fails exactly if there is none. The failure is structural, names the
opener and points at the token before the start. The machine stays as it is. Behind a balanced
stretch the scan returns the same index as from the front of the stretch. -/
theorem closing_exact (tokens : List Token) (start : Nat) {opener closer : Kind}
    (distinct : opener ≠ closer) {spelling : String}
    (spelled : opener.spelling? = some spelling) (what : String) (machine : Machine)
    (here : machine.cursor = .atIndex tokens start) :
    (∀ stop, scan (Scan.closing opener closer what) machine =
      .ok (.atIndex tokens stop) machine ↔ Closes opener closer tokens start stop) ∧
    (∀ stop stop', Closes opener closer tokens start stop →
      Closes opener closer tokens start stop' → stop = stop') ∧
    (scan (Scan.closing opener closer what) machine =
        .error (.failure
          (.structural (.unmatched opener what) (Cursor.atIndex tokens start).last)) machine ↔
      ¬∃ stop, Closes opener closer tokens start stop) ∧
    (Structural.unmatched opener what).message = s!"unmatched '{spelling}' in {what}" ∧
    ∀ inner ahead (later : Machine), tokens.drop start = inner ++ ahead →
      Balanced opener closer inner →
      later.cursor = .atIndex tokens (start + inner.length) → ∀ stop,
        (scan (Scan.closing opener closer what) machine = .ok (.atIndex tokens stop) machine ↔
          scan (Scan.closing opener closer what) later = .ok (.atIndex tokens stop) later) := by
  have returns : ∀ {before : Machine} {index : Nat}, before.cursor = .atIndex tokens index →
      ∀ stop, (scan (Scan.closing opener closer what) before =
        .ok (.atIndex tokens stop) before ↔
        (Cursor.atIndex tokens index).closing? opener closer =
          some (.atIndex tokens stop)) := by
    intro before index stands stop
    rw [closing_eq_ok, stands, and_iff_left rfl]
  refine ⟨fun stop => (returns here stop).trans (Cursor.closing?_atIndex distinct),
    fun _ _ => Closes.unique distinct, ?_, ?_, ?_⟩
  · rw [← Cursor.closing?_atIndex_eq_none distinct, ← here]
    constructor
    · intro failed
      cases found : machine.cursor.closing? opener closer with
      | none => rfl
      | some after =>
          rw [closing_eq_ok.mpr ⟨found, rfl⟩] at failed
          cases failed
    · intro unclosed
      exact closing_of_none unclosed what
  · simp only [Structural.message, Kind.display, spelled, Option.getD_some]
  · intro inner ahead later parts balanced there stop
    rw [returns here, returns there, Cursor.closing?_behind balanced parts]

/-- A group in a group whose closer is missing. -/
def nestedGroups : List Token :=
  [.sign .groupOpen, .sign .groupOpen, .sign .groupClose, .name "x", .sign .groupClose,
    .sign .marker].map Symbol.token

/-- The machine at an index of `nestedGroups`. -/
def nested (index : Nat) : Machine :=
  { cursor := .atIndex nestedGroups index, env := { strict := false } }

/-- Behind the first opener the scan ends behind the second closer, and so does the scan behind
the inner group. From the start it fails. -/
theorem closing_exact_nested :
    Closes .groupOpen .groupClose nestedGroups 1 5 ∧
    scan (Scan.closing .groupOpen .groupClose "group") (nested 1) =
      .ok (.atIndex nestedGroups 5) (nested 1) ∧
    scan (Scan.closing .groupOpen .groupClose "group") (nested 3) =
      .ok (.atIndex nestedGroups 5) (nested 3) ∧
    (¬∃ stop, Closes .groupOpen .groupClose nestedGroups 0 stop) ∧
    scan (Scan.closing .groupOpen .groupClose "group") (nested 0) =
      .error (.failure (.structural (.unmatched .groupOpen "group") none)) (nested 0) := by
  have distinct : Kind.groupOpen ≠ .groupClose := by decide
  have spelled : Kind.groupOpen.spelling? = some ")" := by decide
  have closes : Closes .groupOpen .groupClose nestedGroups 1 5 :=
    ⟨by decide, (nestedGroups.take 4).drop 1, (Symbol.sign .groupClose).token,
      rfl, by decide, rfl⟩
  have failed : scan (Scan.closing .groupOpen .groupClose "group") (nested 0) =
      .error (.failure (.structural (.unmatched .groupOpen "group") none)) (nested 0) := by
    decide
  obtain ⟨returns, -, -, -, resumes⟩ :=
    closing_exact nestedGroups 1 distinct spelled "group" (nested 1) rfl
  obtain ⟨-, -, fails, -⟩ :=
    closing_exact nestedGroups 0 distinct spelled "group" (nested 0) rfl
  have found := (returns 5).mpr closes
  have resumed :=
    (resumes ((nestedGroups.take 3).drop 1) (nestedGroups.drop 3) (nested 3) rfl
      (by decide) rfl 5).mp found
  exact ⟨closes, found, resumed, fails.mp failed, failed⟩

end Exec

end ToonScript
