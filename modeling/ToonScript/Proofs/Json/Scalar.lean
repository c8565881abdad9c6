import Mathlib.Algebra.Ring.Nat
import Mathlib.Data.List.TakeWhile
import ToonScript.Json.Parser
import ToonScript.Json.Printer

/-!
# Reading written texts and numerals

What the printer writes of a text or an integer is read back, whatever follows it
(`readText_escape`, `readScalar_int`). A numeral ends where a space, a comma or a closing
bracket stands, so a reader that has come to the end of a scalar alone comes to the same place
when more of a file stands behind it (`readScalar_append`).
-/

set_option autoImplicit false

namespace ToonScript.Json

open ToonScript.Text

/-! ## Texts -/

/-- A control character is written with four places, which give it back. -/
theorem hexDigits_control : ∀ n < 0x20,
    hexDigits 4 n = ['0', '0', (n / 16).digitChar, (n % 16).digitChar] ∧
      hexFour? '0' '0' (n / 16).digitChar (n % 16).digitChar = some n := by
  decide

/-- A code unit below the surrogates is a character of its own, whatever unit comes next. -/
theorem readText_unit {unit : Nat} {a b c d : Char} (value : hexFour? a b c d = some unit)
    (small : unit < 0xD800) (done : List Point) (rest : List Char) :
    readText done ('\\' :: 'u' :: a :: b :: c :: d :: rest) =
      readText (.char (Char.ofNat unit) :: done) rest := by
  have single : unitPoint unit = .char (Char.ofNat unit) := if_neg (by omega)
  have unpaired : ∀ low, pairChar? unit low = none := fun low => if_neg (by omega)
  by_cases next : ∃ e f g h after, rest = '\\' :: 'u' :: e :: f :: g :: h :: after
  · obtain ⟨e, f, g, h, after, rfl⟩ := next
    have alone : (hexFour? e f g h).bind (pairChar? unit) = none := by
      cases hexFour? e f g h with
      | none => rfl
      | some low => exact unpaired low
    rw [readText, value]
    simp only [alone, single]
  · rw [readText, value]
    · simp only [single]
    · exact fun e f g h after same => next ⟨e, f, g, h, after, same⟩

/-- A letter after a backslash, other than the one of a code unit. -/
theorem readText_letter {c plain : Char} (letter : escaped? c = some plain) (done : List Point)
    (rest : List Char) :
    readText done ('\\' :: c :: rest) = readText (.char plain :: done) rest := by
  have noUnit : c ≠ 'u' := by
    rintro rfl
    cases letter
  rw [readText, letter]
  · exact fun _ _ _ _ _ _ _ _ _ same => absurd same noUnit
  · exact fun _ _ _ _ _ same => absurd same noUnit

/-- A character that stands for itself. -/
theorem readText_plain {c : Char} (noQuote : c ≠ '"') (noEscape : c ≠ '\\')
    (noControl : ¬c.toNat < 0x20) (done : List Point) (rest : List Char) :
    readText done (c :: rest) = readText (.char c :: done) rest := by
  rw [readText, if_neg noControl]
  · exact noQuote
  · exact fun _ _ _ _ _ _ _ _ _ same => absurd same noEscape
  · exact fun _ _ _ _ _ same => absurd same noEscape
  · exact fun _ _ same => absurd same noEscape

/-- A character is written by a letter, by its code, or as it is. -/
theorem escapeChar_cases (c : Char) :
    (∃ letter, escapeChar c = ['\\', letter] ∧ escaped? letter = some c) ∨
    (escapeChar c = '\\' :: 'u' :: hexDigits 4 c.toNat ∧ c.toNat < 0x20) ∨
    (escapeChar c = [c] ∧ c ≠ '"' ∧ c ≠ '\\' ∧ ¬c.toNat < 0x20) := by
  have code : ∀ {n : Nat}, c.toNat = n → c = Char.ofNat n :=
    fun same => same ▸ (Char.ofNat_toNat c).symm
  unfold escapeChar
  split
  · next quote => exact .inl ⟨'"', rfl, congrArg some quote.symm⟩
  split
  · next backslash => exact .inl ⟨'\\', rfl, congrArg some backslash.symm⟩
  split
  · next lineFeed => exact .inl ⟨'n', rfl, congrArg some lineFeed.symm⟩
  split
  · next carriageReturn => exact .inl ⟨'r', rfl, congrArg some carriageReturn.symm⟩
  split
  · next tab => exact .inl ⟨'t', rfl, congrArg some tab.symm⟩
  split
  · next backspace => exact .inl ⟨'b', rfl, congrArg some (code backspace).symm⟩
  split
  · next formFeed => exact .inl ⟨'f', rfl, congrArg some (code formFeed).symm⟩
  split
  · next control => exact .inr (.inl ⟨rfl, control⟩)
  · next noQuote noEscape _ _ _ _ _ noControl =>
      exact .inr (.inr ⟨rfl, noQuote, noEscape, noControl⟩)

/-- One written character gives one character read. -/
theorem readText_escapeChar (c : Char) (done : List Point) (rest : List Char) :
    readText done (escapeChar c ++ rest) = readText (.char c :: done) rest := by
  rcases escapeChar_cases c with
    ⟨letter, written, read⟩ | ⟨written, control⟩ | ⟨written, noQuote, noEscape, noControl⟩
  · rw [written]
    exact readText_letter read done rest
  · obtain ⟨places, value⟩ := hexDigits_control c.toNat control
    have read := readText_unit value (by omega) done rest
    rw [Char.ofNat_toNat] at read
    rw [written, places]
    exact read
  · rw [written]
    exact readText_plain noQuote noEscape noControl done rest

/-- What is written between the quotes of an encodable text is read up to the closing quote. -/
theorem readText_escape {points : List Point} (encodable : points.all Point.isChar)
    (done : List Point) (rest : List Char) :
    readText done (points.flatMap escapePoint ++ '"' :: rest) =
      .ok (⟨done.reverse ++ points⟩, rest) := by
  induction points generalizing done with
  | nil => simp [readText]
  | cons point points ih =>
      rw [List.all_cons, Bool.and_eq_true] at encodable
      cases point with
      | char c =>
          rw [List.flatMap_cons, List.append_assoc, escapePoint, readText_escapeChar,
            ih encodable.2]
          simp
      | lone index => cases encodable.1

/-! ## Where a numeral ends -/

/-- Whether a character may stand behind a numeral: a space, a comma or a closing bracket. -/
def isDelimiter (c : Char) : Bool := isSpace c || c = ',' || c = ']' || c = '}'

/-- A text that cannot go on with a numeral: it is over, or a delimiter stands first. -/
def Delimited (rest : List Char) : Prop := ∀ c ∈ rest.head?, isDelimiter c

/-- A delimiter neither goes on with a row of digits nor starts an exponent. -/
theorem ends_of_isDelimiter {c : Char} (delimiter : isDelimiter c) :
    isAsciiDigit c = false ∧ (c = 'e' || c = 'E') = false := by
  simp only [isDelimiter, isSpace, Bool.or_eq_true, decide_eq_true_eq] at delimiter
  rcases delimiter with (((((rfl | rfl) | rfl) | rfl) | rfl) | rfl) | rfl <;> decide

namespace Delimited

variable {rest : List Char}

/-- A character that does not delimit and stands first stands before what is delimited. -/
theorem exists_cons (delimited : Delimited rest) {cs after : List Char} {c : Char}
    (inside : isDelimiter c = false) (whole : cs ++ rest = c :: after) :
    ∃ tail, cs = c :: tail := by
  cases cs with
  | nil =>
      cases whole
      exact absurd (delimited c rfl) (by simp [inside])
  | cons first tail =>
      cases whole
      exact ⟨tail, rfl⟩

/-- A row of digits ends before a delimiter, if not earlier. -/
theorem span_append (delimited : Delimited rest) (cs : List Char) :
    (cs ++ rest).takeWhile isAsciiDigit = cs.takeWhile isAsciiDigit ∧
      (cs ++ rest).dropWhile isAsciiDigit = cs.dropWhile isAsciiDigit ++ rest := by
  induction cs with
  | nil =>
      cases rest with
      | nil => exact ⟨rfl, rfl⟩
      | cons c rest =>
          have noDigit := (ends_of_isDelimiter (delimited c rfl)).1
          simp [noDigit]
  | cons c cs ih =>
      cases digit : isAsciiDigit c with
      | false => simp [digit]
      | true => simp [digit, ih]

/-! Each part of a numeral is split off in the same way when a delimiter stands behind the
numeral. -/

theorem splitWhole_append (delimited : Delimited rest) (cs : List Char) :
    splitWhole (cs ++ rest) = (splitWhole cs).map fun (whole, after) =>
      (whole, after ++ rest) := by
  obtain ⟨taken, dropped⟩ := delimited.span_append cs
  by_cases zero : ∃ after, cs = '0' :: after
  · obtain ⟨after, rfl⟩ := zero
    rfl
  · rw [splitWhole, splitWhole, taken, dropped]
    · split <;> rfl
    · exact fun after same => zero ⟨after, same⟩
    · exact fun after whole => zero (delimited.exists_cons rfl whole)

theorem splitFraction_append (delimited : Delimited rest) (cs : List Char) :
    splitFraction (cs ++ rest) = ((splitFraction cs).1, (splitFraction cs).2 ++ rest) := by
  by_cases point : ∃ after, cs = '.' :: after
  · obtain ⟨after, rfl⟩ := point
    obtain ⟨taken, dropped⟩ := delimited.span_append after
    rw [List.cons_append, splitFraction, splitFraction, taken, dropped]
    split <;> rfl
  · rw [splitFraction, splitFraction]
    · exact fun after same => point ⟨after, same⟩
    · exact fun after whole => point (delimited.exists_cons rfl whole)

theorem splitSign_append (delimited : Delimited rest) (cs : List Char) :
    Decimal.splitSign (cs ++ rest) =
      ((Decimal.splitSign cs).1, (Decimal.splitSign cs).2 ++ rest) := by
  by_cases minus : ∃ after, cs = '-' :: after
  · obtain ⟨after, rfl⟩ := minus
    rfl
  by_cases plus : ∃ after, cs = '+' :: after
  · obtain ⟨after, rfl⟩ := plus
    rfl
  rw [Decimal.splitSign, Decimal.splitSign]
  · exact fun after same => minus ⟨after, same⟩
  · exact fun after same => plus ⟨after, same⟩
  · exact fun after whole => minus (delimited.exists_cons rfl whole)
  · exact fun after whole => plus (delimited.exists_cons rfl whole)

theorem splitExponent_append (delimited : Delimited rest) (cs : List Char) :
    splitExponent (cs ++ rest) = ((splitExponent cs).1, (splitExponent cs).2 ++ rest) := by
  cases cs with
  | nil =>
      cases rest with
      | nil => rfl
      | cons c rest =>
          change splitExponent (c :: rest) = (none, c :: rest)
          rw [splitExponent, (ends_of_isDelimiter (delimited c rfl)).2]
          rfl
  | cons mark cs =>
      obtain ⟨taken, dropped⟩ := delimited.span_append (Decimal.splitSign cs).2
      rw [List.cons_append, splitExponent, splitExponent, delimited.splitSign_append]
      simp only [taken, dropped]
      repeat' split
      all_goals rfl

/-- A numeral is read in the same way when a delimiter stands behind it. -/
theorem readNumber_append (delimited : Delimited rest) (negative : Bool) {cs after : List Char}
    {value : Json} (read : readNumber negative cs = .ok (value, after)) :
    readNumber negative (cs ++ rest) = .ok (value, after ++ rest) := by
  rw [readNumber, delimited.splitWhole_append]
  rw [readNumber] at read
  cases whole : splitWhole cs with
  | none =>
      rw [whole] at read
      cases read
  | some parts =>
      rw [whole] at read
      simp only [Option.map_some, delimited.splitFraction_append,
        delimited.splitExponent_append]
      simp only at read
      split at read
      · next integer =>
          rw [if_pos integer]
          cases signed : Decimal.signedInteger negative parts.1 with
          | error fault =>
              rw [signed] at read
              cases read
          | ok n =>
              rw [signed] at read
              cases read
              rfl
      · next double =>
          rw [if_neg double]
          cases read
          rfl

end Delimited

/-! ## Scalars -/

/-- A numeral that is read starts with a digit. -/
theorem readNumber_head {negative : Bool} {cs after : List Char} {value : Json}
    (read : readNumber negative cs = .ok (value, after)) :
    ∃ c tail, cs = c :: tail ∧ isAsciiDigit c := by
  cases cs with
  | nil => cases read
  | cons c tail =>
      refine ⟨c, tail, rfl, ?_⟩
      cases digit : isAsciiDigit c with
      | true => rfl
      | false =>
          have noWhole : splitWhole (c :: tail) = none := by
            rw [splitWhole]
            · simp [digit]
            · rintro _ ⟨⟩
              cases digit
          rw [readNumber, noWhole] at read
          cases read

/-- No word starts with a digit. -/
theorem readScalar_digit {c : Char} (digit : isAsciiDigit c) (tail : List Char) :
    readScalar (c :: tail) = readNumber false (c :: tail) := by
  rw [readScalar]
  all_goals
    rintro _ ⟨⟩
    cases digit

/-- Behind a minus and a digit stands a numeral. -/
theorem readScalar_minus {c : Char} (digit : isAsciiDigit c) (tail : List Char) :
    readScalar ('-' :: c :: tail) = readNumber true (c :: tail) := by
  rw [readScalar]
  rintro _ ⟨⟩
  cases digit

/-- A scalar is read as a word, whatever stands behind it, or as a numeral, with or without a
minus. -/
theorem readScalar_eq_ok {cs after : List Char} {value : Json}
    (read : readScalar cs = .ok (value, after)) :
    (∃ c word, c ∉ ['"', '[', '\x7b', ']', '\x7d'] ∧ cs = c :: (word ++ after) ∧
      ∀ rest, readScalar (c :: (word ++ rest)) = .ok (value, rest)) ∨
    (∃ digits, cs = '-' :: digits ∧ readNumber true digits = .ok (value, after)) ∨
    readNumber false cs = .ok (value, after) := by
  revert read
  fun_cases readScalar cs with
  | case1 =>
      rintro ⟨⟩
      exact .inl ⟨'n', ['u', 'l', 'l'], by decide, rfl, fun _ => rfl⟩
  | case2 =>
      rintro ⟨⟩
      exact .inl ⟨'t', ['r', 'u', 'e'], by decide, rfl, fun _ => rfl⟩
  | case3 =>
      rintro ⟨⟩
      exact .inl ⟨'f', ['a', 'l', 's', 'e'], by decide, rfl, fun _ => rfl⟩
  | case4 =>
      rintro ⟨⟩
      exact .inl ⟨'N', ['a', 'N'], by decide, rfl, fun _ => rfl⟩
  | case5 =>
      rintro ⟨⟩
      exact .inl ⟨'I', ['n', 'f', 'i', 'n', 'i', 't', 'y'], by decide, rfl, fun _ => rfl⟩
  | case6 =>
      rintro ⟨⟩
      exact .inl ⟨'-', ['I', 'n', 'f', 'i', 'n', 'i', 't', 'y'], by decide, rfl, fun _ => rfl⟩
  | case7 => exact fun read => .inr (.inl ⟨_, rfl, read⟩)
  | case8 => exact fun read => .inr (.inr read)

/-- A scalar is read in the same way when a delimiter stands behind it. -/
theorem readScalar_append {rest : List Char} (delimited : Delimited rest) {cs after : List Char}
    {value : Json} (read : readScalar cs = .ok (value, after)) :
    readScalar (cs ++ rest) = .ok (value, after ++ rest) := by
  obtain ⟨c, word, -, rfl, reads⟩ | ⟨digits, rfl, number⟩ | number := readScalar_eq_ok read
  · rw [List.cons_append, List.append_assoc]
    exact reads _
  · obtain ⟨c, tail, rfl, digit⟩ := readNumber_head number
    rw [List.cons_append, List.cons_append, readScalar_minus digit]
    exact delimited.readNumber_append true number
  · obtain ⟨c, tail, rfl, digit⟩ := readNumber_head number
    rw [List.cons_append, readScalar_digit digit]
    exact delimited.readNumber_append false number

/-! What a reader leaves of a text is an end of it. -/

theorem splitWhole_suffix {cs whole after : List Char}
    (split : splitWhole cs = some (whole, after)) :
    after <:+ cs := by
  revert split
  fun_cases splitWhole cs with
  | case1 =>
      rintro ⟨⟩
      exact List.suffix_cons _ _
  | case2 => nofun
  | case3 =>
      intro split
      obtain ⟨-, rfl⟩ := Prod.mk.inj (Option.some.inj split)
      exact List.dropWhile_suffix _

theorem splitFraction_suffix {cs fraction after : List Char}
    (split : splitFraction cs = (fraction, after)) :
    after <:+ cs := by
  revert split
  fun_cases splitFraction cs with
  | case1 | case3 =>
      rintro ⟨⟩
      exact List.suffix_refl _
  | case2 =>
      intro split
      obtain ⟨-, rfl⟩ := Prod.mk.inj split
      exact (List.dropWhile_suffix _).trans (List.suffix_cons _ _)

theorem splitSign_suffix {cs after : List Char} {negative : Bool}
    (split : Decimal.splitSign cs = (negative, after)) : after <:+ cs := by
  revert split
  fun_cases Decimal.splitSign cs with
  | case1 | case2 =>
      rintro ⟨⟩
      exact List.suffix_cons _ _
  | case3 =>
      rintro ⟨⟩
      exact List.suffix_refl _

theorem splitExponent_suffix {cs after : List Char} {exponent : Option Int}
    (split : splitExponent cs = (exponent, after)) : after <:+ cs := by
  revert split
  fun_cases splitExponent cs with
  | case1 | case2 | case4 =>
      rintro ⟨⟩
      exact List.suffix_refl _
  | case3 mark rest _ negative signless signed =>
      intro split
      obtain ⟨-, rfl⟩ := Prod.mk.inj split
      exact ((List.dropWhile_suffix _).trans (splitSign_suffix signed)).trans
        (List.suffix_cons _ _)

theorem readNumber_suffix {negative : Bool} {cs after : List Char} {value : Json}
    (read : readNumber negative cs = .ok (value, after)) : after <:+ cs := by
  revert read
  fun_cases readNumber negative cs with
  | case1 | case3 => nofun
  | case2 _ _ first _ _ second _ _ third | case4 _ _ first _ _ second _ _ third =>
      intro read
      obtain ⟨-, rfl⟩ := Prod.mk.inj (Except.ok.inj read)
      exact ((splitExponent_suffix third).trans (splitFraction_suffix second)).trans
        (splitWhole_suffix first)

theorem readScalar_suffix {cs after : List Char} {value : Json}
    (read : readScalar cs = .ok (value, after)) :
    after <:+ cs := by
  obtain ⟨c, word, -, rfl, -⟩ | ⟨digits, rfl, number⟩ | number := readScalar_eq_ok read
  · exact (List.suffix_append word after).trans (List.suffix_cons _ _)
  · exact (readNumber_suffix number).trans (List.suffix_cons _ _)
  · exact readNumber_suffix number

/-! ## Integers -/

/-- The digits of a positive number start with no zero. -/
theorem toDigits_ne_zero_cons {n : Nat} (positive : 0 < n) (tail : List Char) :
    Nat.toDigits 10 n ≠ '0' :: tail := by
  induction n using Nat.strongRecOn generalizing tail with
  | ind n ih =>
      by_cases small : n < 10
      · have oneDigit : ∀ n < 10, 0 < n → n.digitChar ≠ '0' := by decide
        rw [Nat.toDigits_of_lt_base small]
        exact fun same => oneDigit n small positive (List.cons.inj same).1
      · rw [Nat.toDigits_of_base_le (by decide) (by omega)]
        intro same
        cases first : Nat.toDigits 10 (n / 10) with
        | nil => exact Nat.toDigits_ne_nil first
        | cons c front =>
            rw [first] at same
            cases same
            exact ih (n / 10) (by omega) (by omega) front first

/-- The digits of a number are all of its numeral. -/
theorem splitWhole_toDigits (n : Nat) :
    splitWhole (Nat.toDigits 10 n) = some (Nat.toDigits 10 n, []) := by
  have digits : ∀ c ∈ Nat.toDigits 10 n, isAsciiDigit c :=
    fun c member => Nat.isDigit_of_mem_toDigits (by decide) (by decide) member
  rcases Nat.eq_zero_or_pos n with rfl | positive
  · rfl
  · rw [splitWhole]
    · simp only [List.takeWhile_eq_self_iff.mpr digits, List.dropWhile_eq_nil_iff.mpr digits]
      rw [if_neg (by simp)]
    · exact toDigits_ne_zero_cons positive

/-- A row of digits that is not too long is read as its number. -/
theorem readNumber_toDigits (negative : Bool) {n : Nat} (short : n < 10 ^ Decimal.maxDigits) :
    readNumber negative (Nat.toDigits 10 n) = .ok (.int (if negative then -n else n), []) := by
  have length : (Nat.toDigits 10 n).length ≤ Decimal.maxDigits :=
    (Nat.length_toDigits_le_iff (by decide) (by decide)).mpr short
  have value : digitsValue (Nat.toDigits 10 n) = n := Nat.ofDigitChars_ten_toDigits
  have signed : Decimal.signedInteger negative (Nat.toDigits 10 n) =
      .ok (if negative then -n else n) := by
    rw [Decimal.signedInteger, if_neg (by omega), value]
  rw [readNumber, splitWhole_toDigits]
  simp only [splitFraction, splitExponent, signed]
  rfl

/-- A written number starts with a digit. -/
theorem toDigits_eq_cons (n : Nat) :
    ∃ c tail, Nat.toDigits 10 n = c :: tail ∧ isAsciiDigit c := by
  obtain ⟨c, tail, digits⟩ :=
    List.exists_cons_of_ne_nil (Nat.toDigits_ne_nil (n := n) (b := 10))
  exact ⟨c, tail, digits,
    Nat.isDigit_of_mem_toDigits (by decide) (by decide) (digits ▸ List.mem_cons_self)⟩

/-- An integer is read back. -/
theorem readScalar_int {n : Int} (short : n.natAbs < 10 ^ Decimal.maxDigits) :
    readScalar (toString n).toList = .ok (.int n, []) := by
  cases n with
  | ofNat m =>
      obtain ⟨c, tail, digits, digit⟩ := toDigits_eq_cons m
      change readScalar (Nat.repr m).toList = _
      rw [Nat.toList_repr, digits, readScalar_digit digit, ← digits]
      exact readNumber_toDigits false short
  | negSucc m =>
      obtain ⟨c, tail, digits, digit⟩ := toDigits_eq_cons (m + 1)
      change readScalar ("-" ++ Nat.repr (m + 1)).toList = _
      rw [String.toList_append, Nat.toList_repr, digits]
      change readScalar ('-' :: c :: tail) = _
      rw [readScalar_minus digit, ← digits]
      exact readNumber_toDigits true short

/-! ## Doubles -/

theorem mem_positional {digits : List Char} {point : Int} {c : Char}
    (member : c ∈ Decimal.positional digits point) :
    c ∈ digits ∨ c ∈ ['0', '.'] := by
  have mem_padded : ∀ {count : Nat}, c ∈ digits ++ List.replicate count '0' → c ∈ digits ∨
      c ∈ ['0', '.'] := by
    simp +contextual [or_imp]
  unfold Decimal.positional at member
  split at member
  · simp only [List.mem_cons, List.mem_append, List.mem_replicate] at member
    grind
  · simp only [List.mem_append, List.mem_cons] at member
    rcases member with inWhole | rfl | inFraction
    · exact mem_padded (List.mem_of_mem_take inWhole)
    · simp
    · split at inFraction
      · simp_all
      · exact mem_padded (List.mem_of_mem_drop inFraction)

theorem mem_scientific {width : Nat} {digits : List Char} {exponent : Int} {c : Char}
    (member : c ∈ Decimal.scientific width digits exponent) :
    c ∈ digits ∨ c ∈ Nat.toDigits 10 exponent.natAbs ∨ c ∈ ['0', '.', 'e', '-', '+'] := by
  unfold Decimal.scientific at member
  simp only [List.mem_append, List.mem_cons, List.mem_replicate] at member
  grind

theorem isSpace_of_all {cs : List Char} (solid : cs.all fun c => !isSpace c) :
    ∀ c ∈ cs, isSpace c = false := by
  intro c member
  simpa using List.all_eq_true.mp solid c member

theorem isSpace_of_isAsciiDigit {c : Char} (digit : isAsciiDigit c) : isSpace c = false := by
  cases space : isSpace c with
  | false => rfl
  | true =>
      simp only [isSpace, Bool.or_eq_true, decide_eq_true_eq] at space
      rcases space with ((rfl | rfl) | rfl) | rfl <;> cases digit

theorem isSpace_magnitude {scaled : Decimal.Scaled} {c : Char}
    (member : c ∈ Decimal.Layout.data.magnitude scaled) :
    isSpace c = false := by
  have digit : ∀ {n : Nat}, c ∈ Nat.toDigits 10 n → isSpace c = false :=
    fun member => isSpace_of_isAsciiDigit
      (Nat.isDigit_of_mem_toDigits (by decide) (by decide) member)
  have sign : ∀ c ∈ ['0', '.', 'e', '-', '+'], isSpace c = false := isSpace_of_all rfl
  simp only [Decimal.Layout.magnitude] at member
  split at member
  · rcases mem_positional member with inDigits | inSigns
    · exact digit inDigits
    · exact sign c (List.mem_of_mem_take (i := 2) inSigns)
  · rcases mem_scientific member with inDigits | inPlaces | inSigns
    · exact digit inDigits
    · exact digit inPlaces
    · exact sign c inSigns

/-- There is no space in the text of a double. -/
theorem isSpace_render (x : Float) :
    ∀ c ∈ (Decimal.Layout.data.render x).toList, isSpace c = false := by
  have signed : ∀ {negative : Bool} {text : String}, (∀ c ∈ text.toList, isSpace c = false) →
      ∀ c ∈ ((if negative then "-" else "") ++ text).toList, isSpace c = false := by
    intro negative text inside c member
    rw [String.toList_append] at member
    rcases List.mem_append.mp member with inSign | inText
    · cases negative with
      | false => cases inSign
      | true =>
          rw [List.mem_singleton.mp inSign]
          rfl
    · exact inside c inText
  unfold Decimal.Layout.render
  split
  · exact isSpace_of_all (by decide)
  · dsimp only
    split
    · exact signed (isSpace_of_all (by decide))
    · split
      · exact signed (isSpace_of_all (by decide))
      · exact signed fun c member => isSpace_magnitude (String.toList_ofList ▸ member)

/-- A text without spaces keeps its front. -/
theorem skipSpace_of_isSpace {cs : List Char} (solid : ∀ c ∈ cs, isSpace c = false) :
    skipSpace cs = cs := by
  cases cs with
  | nil => rfl
  | cons c cs => exact List.dropWhile_cons_of_neg (by simp [solid c])

/-- A whole text is read if a value is read from its first sign on and only spaces follow. -/
theorem parse_eq_ok_iff {text : String} {value : Json} :
    parse text = .ok value ↔
      ∃ rest, readValue (2 * text.toList.length + 2) (skipSpace text.toList) =
        .ok (value, rest) ∧ skipSpace rest = [] := by
  simp only [parse]
  cases read : readValue (2 * text.toList.length + 2) (skipSpace text.toList) with
  | error fault =>
      constructor
      · rintro ⟨⟩
      · rintro ⟨_, ⟨⟩, _⟩
  | ok pair =>
      obtain ⟨found, rest⟩ := pair
      change (if (skipSpace rest).isEmpty then .ok found else .error ParseError.malformed) =
        Except.ok value ↔ _
      constructor
      · intro parsed
        split at parsed
        · next finished =>
            cases parsed
            exact ⟨rest, rfl, List.isEmpty_iff.mp finished⟩
        · cases parsed
      · rintro ⟨_, ⟨⟩, finished⟩
        rw [finished]
        rfl

/-- Only scalars are doubles. -/
theorem readScalar_of_readValue {steps : Nat} {cs rest : List Char} {x : Float}
    (read : readValue steps cs = .ok (.float x, rest)) :
    readScalar cs = .ok (.float x, rest) := by
  revert read
  fun_cases readValue steps cs with
  | case1 | case3 | case5 => nofun
  | case2 _ text => cases readText [] text <;> nofun
  | case4 steps items => cases readItems steps (skipSpace items) <;> nofun
  | case6 steps members => cases readMembers steps [] (skipSpace members) <;> nofun
  | case7 => exact id

/-- A double whose text alone is read back is read back as a scalar, and nothing is left. -/
theorem readScalar_float {x : Float}
    (readsBack : parse (Decimal.Layout.data.render x) = .ok (.float x)) :
    readScalar (Decimal.Layout.data.render x).toList = .ok (.float x, []) := by
  obtain ⟨rest, read, spaces⟩ := parse_eq_ok_iff.mp readsBack
  rw [skipSpace_of_isSpace (isSpace_render x)] at read
  have scalar := readScalar_of_readValue read
  have solid : ∀ c ∈ rest, isSpace c = false :=
    fun c member => isSpace_render x c ((readScalar_suffix scalar).mem member)
  rw [skipSpace_of_isSpace solid] at spaces
  rw [scalar, spaces]

end ToonScript.Json
