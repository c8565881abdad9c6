/-!
# Patterns of texts

A pattern matches a stretch at the start of a text, often in more than one way. Which of its
matches counts is a matter of preference: the first branch of a choice goes before the second,
something optional before nothing, one more repetition before none, and a later part of the
pattern gives in before an earlier one. `Pattern.rests` lists what the matches leave of a text,
the preferred one first.

The preferred match need not be the longest. It is found without looking at the others as long
as no part has to give in: that is what the lemmas about `Pattern.Prefers` and `Pattern.Fails`
say, one or two for each kind of pattern.

`Pattern.Scans` is the reading of a whole text: preferred matches from left to right, with
ignored characters between them.
-/

set_option autoImplicit false

namespace ToonScript.Text

/-- Patterns that match a stretch of text. A choice prefers its first pattern, an optional
pattern prefers to match, and a repetition takes as many stretches as there are. -/
inductive Pattern where
  | one (accepts : Char → Bool)
  | seq (first second : Pattern)
  | choice (first second : Pattern)
  | optional (body : Pattern)
  | many (body : Pattern)

namespace Pattern

/-- At least one stretch of a pattern. -/
def oneOrMore (body : Pattern) : Pattern := seq body (many body)

/-- What rows of steps leave of a text, one more step being preferred to none. A step has to
pass something. -/
def repetitions (step : List Char → List (List Char)) (text : List Char) : List (List Char) :=
  ((step text).filter (·.length < text.length)).attach.flatMap
    (fun rest => repetitions step rest.val) ++ [text]
termination_by text.length
decreasing_by exact of_decide_eq_true (List.mem_filter.mp rest.property).2

theorem repetitions_eq (step : List Char → List (List Char)) (text : List Char) :
    repetitions step text = ((step text).filter (·.length < text.length)).flatMap
      (repetitions step) ++ [text] := by
  rw [repetitions]
  simp only [List.flatMap_subtype, List.unattach_attach]

/-- What the matches of a pattern at the start of a text leave of it, the preferred match first.
-/
def rests : Pattern → List Char → List (List Char)
  | one _, [] => []
  | one accepts, c :: rest => if accepts c then [rest] else []
  | seq first second, text => (first.rests text).flatMap second.rests
  | choice first second, text => first.rests text ++ second.rests text
  | optional body, text => body.rests text ++ [text]
  | many body, text => repetitions body.rests text

variable {pattern first second body : Pattern} {accepts : Char → Bool}
  {text middle rest : List Char} {c : Char}

theorem rests_cons : (one accepts).rests (c :: rest) = if accepts c then [rest] else [] := rfl

theorem rests_seq : (seq first second).rests text = (first.rests text).flatMap second.rests :=
  rfl

theorem rests_choice :
    (choice first second).rests text = first.rests text ++ second.rests text := rfl

theorem rests_optional : (optional body).rests text = body.rests text ++ [text] := rfl

theorem rests_many : (many body).rests text = repetitions body.rests text := rfl

/-- The preferred match of a pattern leaves this rest of a text. -/
def Prefers (pattern : Pattern) (text rest : List Char) : Prop :=
  (pattern.rests text).head? = some rest

/-- A pattern has no match at the start of a text. -/
def Fails (pattern : Pattern) (text : List Char) : Prop := pattern.rests text = []

theorem Prefers.unique {other : List Char} (prefers : pattern.Prefers text rest)
    (prefers' : pattern.Prefers text other) : rest = other :=
  Option.some.inj (prefers.symm.trans prefers')

theorem Prefers.not_fails (prefers : pattern.Prefers text rest) : ¬ pattern.Fails text := by
  intro fails
  rw [Prefers, fails] at prefers
  cases prefers

/-! ## Characters -/

theorem one_prefers (accepted : accepts c = true) : (one accepts).Prefers (c :: rest) rest := by
  rw [Prefers, rests_cons, if_pos accepted, List.head?_cons]

theorem one_fails_nil : (one accepts).Fails [] := rfl

theorem one_fails_cons (refused : accepts c = false) : (one accepts).Fails (c :: rest) := by
  rw [Fails, rests_cons, if_neg (Bool.eq_false_iff.mp refused)]

/-! ## Sequences, choices and options -/

theorem Prefers.seq (before : first.Prefers text middle) (behind : second.Prefers middle rest) :
    (seq first second).Prefers text rest := by
  obtain ⟨others, preferred⟩ := List.head?_eq_some_iff.mp before
  simp only [Prefers, rests_seq, preferred, List.flatMap_cons, List.head?_append]
  rw [show (second.rests middle).head? = some rest from behind]
  rfl

theorem Fails.seq (fails : first.Fails text) : (seq first second).Fails text := by
  rw [Fails] at fails
  rw [Fails, rests_seq, fails, List.flatMap_nil]

theorem Prefers.choice (prefers : first.Prefers text rest) :
    (choice first second).Prefers text rest := by
  rw [Prefers] at prefers
  rw [Prefers, rests_choice, List.head?_append, prefers, Option.some_or]

theorem Fails.choice_prefers (fails : first.Fails text) (prefers : second.Prefers text rest) :
    (choice first second).Prefers text rest := by
  rw [Fails] at fails
  rw [Prefers] at prefers
  rw [Prefers, rests_choice, fails, List.nil_append, prefers]

theorem Fails.choice (fails : first.Fails text) (fails' : second.Fails text) :
    (choice first second).Fails text := by
  rw [Fails] at fails fails'
  rw [Fails, rests_choice, fails, fails', List.append_nil]

theorem Prefers.optional (prefers : body.Prefers text rest) :
    (optional body).Prefers text rest := by
  rw [Prefers] at prefers
  rw [Prefers, rests_optional, List.head?_append, prefers, Option.some_or]

theorem Fails.optional (fails : body.Fails text) : (optional body).Prefers text text := by
  rw [Fails] at fails
  rw [Prefers, rests_optional, fails, List.nil_append, List.head?_cons]

/-! ## Repetitions -/

theorem Fails.many (fails : body.Fails text) : (many body).Prefers text text := by
  rw [Fails] at fails
  rw [Prefers, rests_many, repetitions_eq, fails]
  rfl

theorem Prefers.many (before : body.Prefers text middle) (shorter : middle.length < text.length)
    (behind : (many body).Prefers middle rest) : (many body).Prefers text rest := by
  obtain ⟨others, preferred⟩ := List.head?_eq_some_iff.mp before
  have kept : (body.rests text).filter (·.length < text.length) =
      middle :: others.filter (·.length < text.length) := by
    rw [preferred]
    exact List.filter_cons_of_pos (decide_eq_true shorter)
  rw [Prefers, rests_many] at behind ⊢
  rw [repetitions_eq, kept, List.flatMap_cons, List.append_assoc, List.head?_append, behind]
  rfl

theorem Fails.oneOrMore (fails : body.Fails text) : (Pattern.oneOrMore body).Fails text :=
  Fails.seq fails

theorem Prefers.oneOrMore (before : body.Prefers text middle)
    (behind : (Pattern.many body).Prefers middle rest) :
    (Pattern.oneOrMore body).Prefers text rest :=
  Prefers.seq before behind

/-- Characters of a class are passed as far as they go. -/
theorem many_one_prefers (accepts : Char → Bool) (text : List Char) :
    (many (one accepts)).Prefers text (text.dropWhile accepts) := by
  induction text with
  | nil => exact one_fails_nil.many
  | cons c rest ih =>
      cases accepted : accepts c with
      | true =>
          rw [List.dropWhile_cons_of_pos accepted]
          exact (one_prefers accepted).many (Nat.lt_succ_self _) ih
      | false =>
          rw [List.dropWhile_cons_of_neg (Bool.eq_false_iff.mp accepted)]
          exact (one_fails_cons accepted).many

/-! ## Whole texts -/

/-- A text, read from left to right as preferred matches of a pattern. A character at which
there is no match has to be an ignored one, and is passed over. -/
inductive Scans (pattern : Pattern) (ignored : Char → Bool) :
    List Char → List (List Char) → Prop where
  | done : Scans pattern ignored [] []
  | found {stretch rest : List Char} {others : List (List Char)}
      (prefers : pattern.Prefers (stretch ++ rest) rest) (passes : stretch ≠ [])
      (scans : Scans pattern ignored rest others) :
      Scans pattern ignored (stretch ++ rest) (stretch :: others)
  | ignored {c : Char} {rest : List Char} {others : List (List Char)}
      (fails : pattern.Fails (c :: rest)) (isIgnored : ignored c = true)
      (scans : Scans pattern ignored rest others) :
      Scans pattern ignored (c :: rest) others

/-- A text is read in one way only. -/
theorem Scans.unique {ignored : Char → Bool} {found : List (List Char)}
    (scans : Scans pattern ignored text found) :
    ∀ {other : List (List Char)}, Scans pattern ignored text other → found = other := by
  induction scans with
  | done =>
      intro other scans'
      generalize empty : ([] : List Char) = text at scans'
      cases scans' with
      | done => rfl
      | found _ passes _ => exact absurd (List.append_eq_nil_iff.mp empty.symm).1 passes
      | ignored => cases empty
  | @found stretch rest others prefers passes _ ih =>
      intro other scans'
      generalize whole : stretch ++ rest = text at scans' prefers
      cases scans' with
      | done => exact absurd (List.append_eq_nil_iff.mp whole).1 passes
      | @found stretch' rest' others' prefers' _ scans' =>
          obtain rfl := prefers.unique prefers'
          obtain rfl := List.append_cancel_right whole
          rw [ih scans']
      | ignored fails => exact absurd fails prefers.not_fails
  | @ignored c rest others fails _ _ ih =>
      intro other scans'
      generalize whole : c :: rest = text at scans' fails
      cases scans' with
      | done => cases whole
      | found prefers => exact absurd fails prefers.not_fails
      | ignored _ _ scans' =>
          cases whole
          exact ih scans'

end Pattern

end ToonScript.Text
