import Mathlib.Data.List.Induction
import Mathlib.Data.Nat.Digits.Lemmas
import ToonScript.Failure
import ToonScript.Token.Lexer

/-!
# Integers as they are written

Digits are read in two places: a literal of a source text is a row of digits, and a line that a
user types may have a sign in front of the row. The two readers have nothing in common but the
limit of 64 bits. The lexer drops the zeros in front and settles long rows by their length, so
that it never asks for the value of a row that is too long; the reader of lines refuses such a
row.

Both are compared here with the positional value of a row, `decimalValue`. A row whose first
digit is not zero has a value of at least `10 ^ (length - 1)` (`pow_le_decimalValue`), which is
why the length decides (`Token.rowInteger_eq`, `Token.integer_literal_exact`). `Writes` is the
grammar of typed integers; what the reader of lines accepts is what is written within the
limits, which includes every integer as it is printed (`Value.typed_integer_exact`).
-/

set_option autoImplicit false

namespace ToonScript

namespace Text

/-! ## The value of a row of digits -/

/-- A row of digits: at least one character, and each one an ASCII digit. -/
structure IsRow (row : List Char) : Prop where
  nonempty : row ≠ []
  digits : ∀ c ∈ row, isAsciiDigit c = true

/-- The number that a digit stands for. -/
def digitNumber (c : Char) : Nat := c.toNat - '0'.toNat

/-- The number that a row of digits writes in the decimal system, where the last digit counts
once and every other digit ten times as much as if it stood one place further on. -/
def decimalValue (row : List Char) : Nat := Nat.ofDigits 10 (row.reverse.map digitNumber)

variable {row : List Char} {c : Char}

theorem decimalValue_concat (row : List Char) (c : Char) :
    decimalValue (row ++ [c]) = 10 * decimalValue row + digitNumber c := by
  rw [decimalValue, List.reverse_append, List.reverse_singleton, List.singleton_append,
    List.map_cons, Nat.ofDigits_cons]
  exact Nat.add_comm _ _

theorem decimalValue_cons (c : Char) (row : List Char) :
    decimalValue (c :: row) = decimalValue row + 10 ^ row.length * digitNumber c := by
  simp [decimalValue, Nat.ofDigits_append]

/-- The value that is computed from left to right is the positional value. -/
theorem digitsValue_eq (row : List Char) : digitsValue row = decimalValue row := by
  induction row using List.reverseRecOn with
  | nil => rfl
  | append_singleton row c ih =>
      rw [decimalValue_concat, ← ih]
      simp [digitsValue, List.foldl_append, digitNumber]

/-- Zeros in front of a row do not count. -/
theorem decimalValue_dropWhile_zero (row : List Char) :
    decimalValue (row.dropWhile (· = '0')) = decimalValue row := by
  induction row with
  | nil => rfl
  | cons c row ih =>
      by_cases zero : c = '0'
      · subst zero
        have none : digitNumber '0' = 0 := rfl
        rw [List.dropWhile_cons_of_pos (by simp), ih, decimalValue_cons, none,
          Nat.mul_zero, Nat.add_zero]
      · rw [List.dropWhile_cons_of_neg (by simpa using zero)]

theorem digitNumber_pos (digit : isAsciiDigit c = true) (other : c ≠ '0') :
    0 < digitNumber c := by
  simp only [isAsciiDigit, Bool.and_eq_true, decide_eq_true_eq] at digit
  have lower : '0'.toNat ≤ c.toNat := digit.1
  have distinct : c.toNat ≠ '0'.toNat := fun same => other (Char.toNat_inj.mp same)
  rw [digitNumber]
  omega

/-- A row that starts with another digit than zero has no more digits than its value. -/
theorem pow_le_decimalValue (row : List Char) (digit : isAsciiDigit c = true)
    (leading : c ≠ '0') : 10 ^ row.length ≤ decimalValue (c :: row) := by
  have counted : 10 ^ row.length * 1 ≤ 10 ^ row.length * digitNumber c :=
    Nat.mul_le_mul_left _ (digitNumber_pos digit leading)
  rw [decimalValue_cons]
  omega

/-- The digits of a number, as it is printed, are a row. -/
theorem isRow_toDigits (n : Nat) : IsRow (Nat.toDigits 10 n) where
  nonempty := Nat.toDigits_ne_nil
  digits _ member := Nat.isDigit_of_mem_toDigits (by decide) (by decide) member

theorem decimalValue_toDigits (n : Nat) : decimalValue (Nat.toDigits 10 n) = n := by
  rw [← digitsValue_eq]
  exact Nat.ofDigitChars_ten_toDigits

end Text

open Text

namespace Token

/-! ## Rows of digits in a source text -/

variable {row : List Char}

theorem isDigits_iff : isDigits row = true ↔ IsRow row := by
  simp only [isDigits, Bool.and_eq_true, Bool.not_eq_true', List.isEmpty_eq_false_iff,
    List.all_eq_true]
  exact ⟨fun ⟨nonempty, digits⟩ => ⟨nonempty, digits⟩,
    fun isRow => ⟨isRow.nonempty, isRow.digits⟩⟩

/-- The significant digits of a row: a single zero, or a row that starts with another digit. -/
theorem significant_cases (digits : ∀ c ∈ row, isAsciiDigit c = true) :
    significant row = ['0'] ∨
      ∃ c tail, significant row = c :: tail ∧ c ≠ '0' ∧
        ∀ d ∈ c :: tail, isAsciiDigit d = true := by
  rw [significant]
  cases dropped : row.dropWhile (· = '0') with
  | nil => exact .inl rfl
  | cons c tail =>
      have kept : c :: tail <:+ row := dropped ▸ List.dropWhile_suffix _
      have remains : row.dropWhile (· = '0') ≠ [] := by simp [dropped]
      have stopped := List.head_dropWhile_not _ remains
      simp only [dropped, List.head_cons, decide_eq_false_iff_not] at stopped
      exact .inr ⟨c, tail, rfl, stopped, fun d member => digits d (kept.mem member)⟩

theorem decimalValue_significant (row : List Char) :
    decimalValue (significant row) = decimalValue row := by
  have value := decimalValue_dropWhile_zero row
  rw [significant]
  cases dropped : row.dropWhile (· = '0') with
  | nil | cons =>
      rw [dropped] at value
      exact value

theorem greatestDigits_eq : greatestDigits = 19 := by decide

/-- A row with more significant digits than the greatest integer writes a greater number. -/
theorem greatestInt_lt_of_long (digits : ∀ c ∈ row, isAsciiDigit c = true)
    (long : greatestDigits < (significant row).length) : greatestInt < decimalValue row := by
  rw [greatestDigits_eq] at long
  rcases significant_cases digits with zero | ⟨c, tail, split, leading, all⟩
  · rw [zero] at long
    exact absurd long (by decide)
  · -- at least twenty digits, and the first of them is not zero
    rw [split, List.length_cons] at long
    have least : 10 ^ 19 ≤ 10 ^ tail.length :=
      Nat.pow_le_pow_right (by decide) (Nat.le_of_lt_succ long)
    have value := pow_le_decimalValue tail (all c List.mem_cons_self) leading
    rw [← split, decimalValue_significant] at value
    rw [greatestInt]
    omega

/-- A row of digits is read without a fault, and as its value if the value fits into 64 bits. -/
theorem rowInteger_eq (isRow : IsRow row) :
    rowInteger row =
      .ok (if (decimalValue row : Int) ≤
        greatestInt then some (decimalValue row : Int) else none) := by
  rw [rowInteger]
  by_cases long : greatestDigits < (significant row).length
  · have greater := greatestInt_lt_of_long isRow.digits long
    rw [if_pos long, if_neg (by omega)]
    rfl
  · have short : ¬ Decimal.maxDigits < (significant row).length := by
      rw [greatestDigits_eq] at long
      rw [Decimal.maxDigits]
      omega
    have read : Decimal.signedInteger false (significant row) =
        .ok (decimalValue row : Int) := by
      rw [Decimal.signedInteger, if_neg short, digitsValue_eq, decimalValue_significant]
      rfl
    rw [if_neg long, read]
    rfl

/-- No fixed spelling is a row of digits. -/
theorem ofSpelling?_of_isRow {chunk : String} (isRow : IsRow chunk.toList) :
    Kind.ofSpelling? chunk = none := by
  have words : ∀ entry ∈ vocabulary, isDigits entry.1.toList = false := by decide
  exact Kind.ofSpelling?_eq_none (fun text => isDigits text.toList) words
    (isDigits_iff.mpr isRow)

/-- A row of digits is no quoted text. -/
theorem quotedSpan?_of_isRow (isRow : IsRow row) : quotedSpan? row = none := by
  cases row with
  | nil => rfl
  | cons c tail =>
      have digit := isRow.digits c List.mem_cons_self
      rw [quotedSpan?]
      rintro rest same
      cases same
      cases digit

theorem classifyParts_of_isRow {chunk : String} (isRow : IsRow chunk.toList) :
    classifyParts chunk =
      if (decimalValue chunk.toList : Int) ≤
        greatestInt then (.number, some (.ofInt (decimalValue chunk.toList)))
      else (.unknown, none) := by
  rw [classifyParts, ofSpelling?_of_isRow isRow]
  simp only [classifyFree, quotedSpan?_of_isRow isRow, isDigits_iff.mpr isRow,
    rowInteger_eq isRow, if_true]
  by_cases fits : (decimalValue chunk.toList : Int) ≤ greatestInt
  · simp only [if_pos fits]
  · simp only [if_neg fits]

/-- **Integer literals are read exactly.** A row of digits of any length, with any number of
zeros in front, is read without a fault: the decision by the number of significant digits agrees
with the comparison of the whole value. Its token is a number with this value if the value fits
into 64 bits, and unknown otherwise. -/
theorem integer_literal_exact {chunk : String} (isRow : IsRow chunk.toList) (line : Int) :
    rowInteger chunk.toList =
      .ok (if (decimalValue chunk.toList : Int) ≤ 2 ^ 63 - 1
        then some (decimalValue chunk.toList : Int) else none) ∧
    (classify chunk line).lexeme = chunk ∧ (classify chunk line).line = line ∧
    ((decimalValue chunk.toList : Int) ≤ 2 ^ 63 - 1 → (classify chunk line).kind = .number ∧
      ∃ n : Int64, (classify chunk line).literal = some (.int n) ∧
        n.toInt = decimalValue chunk.toList) ∧
    (2 ^ 63 - 1 < (decimalValue chunk.toList : Int) → (classify chunk line).kind = .unknown ∧
      (classify chunk line).literal = none) := by
  have limit : (2 ^ 63 - 1 : Int) = greatestInt := rfl
  have parts := classifyParts_of_isRow isRow
  rw [limit]
  refine ⟨rowInteger_eq isRow, rfl, rfl, ?_, ?_⟩
  · intro fits
    rw [if_pos fits, Value.ofInt_eq] at parts
    refine ⟨congrArg Prod.fst parts, _, congrArg Prod.snd parts, ?_⟩
    rw [greatestInt] at fits
    exact Int64.toInt_ofInt_of_le (by omega) (by omega)
  · intro greater
    rw [if_neg (by omega)] at parts
    exact ⟨congrArg Prod.fst parts, congrArg Prod.snd parts⟩

/-- The greatest integer behind zeros, and the least number that is too large. -/
theorem integer_literal_exact_limits :
    (IsRow "0009223372036854775807".toList ∧
      (classify "0009223372036854775807" 3).kind = .number ∧
      ∃ n : Int64, (classify "0009223372036854775807" 3).literal = some (.int n) ∧
        n.toInt = 9223372036854775807) ∧
    IsRow "9223372036854775808".toList ∧ (classify "9223372036854775808" 3).kind = .unknown ∧
      (classify "9223372036854775808" 3).literal = none := by
  have row : IsRow "0009223372036854775807".toList := isDigits_iff.mp (by decide)
  have longer : IsRow "9223372036854775808".toList := isDigits_iff.mp (by decide)
  have value : decimalValue "0009223372036854775807".toList = 9223372036854775807 := by
    rw [← digitsValue_eq]
    decide
  have greater : decimalValue "9223372036854775808".toList = 9223372036854775808 := by
    rw [← digitsValue_eq]
    decide
  obtain ⟨-, -, -, fits, -⟩ := integer_literal_exact row 3
  obtain ⟨-, -, -, -, unfit⟩ := integer_literal_exact longer 3
  rw [value] at fits
  rw [greater] at unfit
  exact ⟨⟨row, fits (by decide)⟩, longer, unfit (by decide)⟩

end Token

/-! ## Typed integers -/

/-- A text writes an integer by a row of digits, with a sign in front or without one. -/
inductive Writes : List Char → List Char → Int → Prop where
  | plain {row : List Char} (isRow : IsRow row) : Writes row row (decimalValue row)
  | plus {row : List Char} (isRow : IsRow row) : Writes ('+' :: row) row (decimalValue row)
  | minus {row : List Char} (isRow : IsRow row) : Writes ('-' :: row) row (-decimalValue row)

/-- A text writes an integer of 64 bits with at most 4300 digits. -/
def WritesWithin (text : List Char) (n : Int) : Prop :=
  ∃ row, Writes text row n ∧ row.length ≤ 4300 ∧ -2 ^ 63 ≤ n ∧ n ≤ 2 ^ 63 - 1

/-- The integer of a sign and a row of digits. -/
def signedValue (negative : Bool) (row : List Char) : Int :=
  if negative then -(decimalValue row : Int) else decimalValue row

variable {text row : List Char} {n : Int}

/-- A row of digits has no sign. -/
theorem splitSign_of_isRow (isRow : IsRow row) : Decimal.splitSign row = (false, row) := by
  cases row with
  | nil => rfl
  | cons c tail =>
      have digit := isRow.digits c List.mem_cons_self
      rw [Decimal.splitSign]
      · rintro rest same
        cases same
        cases digit
      · rintro rest same
        cases same
        cases digit

theorem Writes.splitSign_eq (writes : Writes text row n) :
    ∃ negative, Decimal.splitSign text = (negative, row) ∧ IsRow row ∧
      n = signedValue negative row := by
  cases writes with
  | plain isRow => exact ⟨false, splitSign_of_isRow isRow, isRow, rfl⟩
  | plus isRow => exact ⟨false, rfl, isRow, rfl⟩
  | minus isRow => exact ⟨true, rfl, isRow, rfl⟩

theorem writes_of_splitSign {negative : Bool} (split : Decimal.splitSign text = (negative, row))
    (isRow : IsRow row) : Writes text row (signedValue negative row) := by
  unfold Decimal.splitSign at split
  split at split
  · cases split
    exact .minus isRow
  · cases split
    exact .plus isRow
  · cases split
    exact .plain isRow

/-- What a line that writes an integer is read as. -/
theorem readIntegerLine_of_writes {line : Text} (writes : Writes line.chars row n) :
    readIntegerLine line =
      if Decimal.maxDigits < row.length then .error (.tooLong row.length)
      else if leastInt ≤ n ∧
        n ≤ greatestInt then .ok (.ofInt n) else .error (.outOfRange line) := by
  obtain ⟨negative, split, isRow, rfl⟩ := writes.splitSign_eq
  have filled : (row.isEmpty || !row.all isAsciiDigit) = false := by
    simpa [isRow.nonempty] using isRow.digits
  have read : Decimal.signedInteger negative row =
      if Decimal.maxDigits < row.length then .error (.tooLong row.length) else
        .ok (signedValue negative row) := by
    rw [Decimal.signedInteger, digitsValue_eq]
    rfl
  simp only [readIntegerLine, split, filled, read]
  by_cases long : Decimal.maxDigits < row.length
  · simp only [if_pos long]
    rfl
  · simp only [if_neg long]
    rfl

/-- A line that writes no integer is refused. -/
theorem readIntegerLine_of_not_writes {line : Text}
    (none : ∀ row n, ¬ Writes line.chars row n) :
    readIntegerLine line = .error (.notInteger line) := by
  cases split : Decimal.splitSign line.chars with
  | mk negative row =>
      have empty : (row.isEmpty || !row.all isAsciiDigit) = true := by
        by_contra filled
        simp only [Bool.or_eq_true, List.isEmpty_iff, Bool.not_eq_true', not_or,
          Bool.not_eq_false, List.all_eq_true] at filled
        exact none _ _ (writes_of_splitSign split ⟨filled.1, filled.2⟩)
      simp only [readIntegerLine, split, empty, if_true]

/-- What is written is determined by the text. -/
theorem Writes.unique {row' : List Char} {n' : Int} (writes : Writes text row n)
    (again : Writes text row' n') :
    row = row' ∧ n = n' := by
  obtain ⟨negative, split, -, rfl⟩ := writes.splitSign_eq
  obtain ⟨negative', split', -, rfl⟩ := again.splitSign_eq
  rw [split] at split'
  cases split'
  exact ⟨rfl, rfl⟩

/-- A printed integer writes itself. -/
theorem writes_toString (n : Int) :
    Writes (toString n).toList (Nat.toDigits 10 n.natAbs) n := by
  cases n with
  | ofNat m =>
      have writes := Writes.plain (isRow_toDigits m)
      rw [decimalValue_toDigits] at writes
      change Writes (Nat.repr m).toList _ _
      rw [Nat.toList_repr]
      exact writes
  | negSucc m =>
      have writes := Writes.minus (isRow_toDigits (m + 1))
      rw [decimalValue_toDigits] at writes
      change Writes ("-" ++ Nat.repr (m + 1)).toList _ _
      rw [String.toList_append, Nat.toList_repr]
      exact writes

namespace Value

/-- A line is read as an integer exactly if it writes it within the limits. -/
theorem ofInput_int_eq_ok_iff {line : Text} {n : Int64} :
    ofInput .int line = .ok (.int n) ↔ WritesWithin line.chars n.toInt := by
  change readIntegerLine line = .ok (.int n) ↔ _
  constructor
  · intro read
    by_cases written : ∃ row m, Writes line.chars row m
    · obtain ⟨row, m, writes⟩ := written
      rw [readIntegerLine_of_writes writes] at read
      split at read
      · cases read
      · next short =>
          split at read
          · next fits =>
              rw [ofInt_eq] at read
              cases read
              rw [leastInt, greatestInt] at fits
              rw [Decimal.maxDigits] at short
              rw [Int64.toInt_ofInt_of_le (by omega) (by omega)]
              exact ⟨row, writes, by omega, by omega, by omega⟩
          · cases read
    · rw [readIntegerLine_of_not_writes fun row m writes => written ⟨row, m, writes⟩] at read
      cases read
  · rintro ⟨row, writes, short, lower, upper⟩
    have fits : leastInt ≤ n.toInt ∧ n.toInt ≤ greatestInt := by
      rw [leastInt, greatestInt]
      omega
    rw [readIntegerLine_of_writes writes, if_neg (by rw [Decimal.maxDigits]; omega),
      if_pos fits, ofInt_eq, Int64.ofInt_toInt]

/-- A line that writes no integer within the limits is refused, and the failure is about a
value. -/
theorem ofInput_int_of_not_written {line : Text} (none : ∀ n, ¬ WritesWithin line.chars n) :
    ∃ error, ofInput .int line = .error error ∧
      ∀ name, (Failure.input name error).category = .value := by
  change ∃ error, readIntegerLine line = .error error ∧ _
  by_cases written : ∃ row m, Writes line.chars row m
  · obtain ⟨row, m, writes⟩ := written
    rw [readIntegerLine_of_writes writes]
    by_cases long : Decimal.maxDigits < row.length
    · exact ⟨_, if_pos long, fun _ => rfl⟩
    · rw [if_neg long]
      rw [Decimal.maxDigits] at long
      have unfit : ¬ (leastInt ≤ m ∧ m ≤ greatestInt) := by
        rintro ⟨lower, upper⟩
        rw [leastInt] at lower
        rw [greatestInt] at upper
        exact none m ⟨row, writes, by omega, by omega, by omega⟩
      exact ⟨_, if_neg unfit, fun _ => rfl⟩
  · exact ⟨_, readIntegerLine_of_not_writes fun row m writes => written ⟨row, m, writes⟩,
      fun _ => rfl⟩

/-- Every integer of 64 bits is written within the limits as it is printed. -/
theorem writesWithin_text (n : Int64) : WritesWithin (Value.int n).text.chars n.toInt := by
  have lower := n.le_toInt
  have upper := n.toInt_lt
  have short : (Nat.toDigits 10 n.toInt.natAbs).length ≤ 19 :=
    (Nat.length_toDigits_le_iff (by decide) (by decide)).mpr (by omega)
  have writes := writes_toString n.toInt
  rw [← Text.chars_ofString] at writes
  exact ⟨_, writes, by omega, by omega, by omega⟩

/-- **Typed integers are read exactly.** A line is read as an integer if and only if it is a row
of at most 4300 digits, with at most one sign in front, whose value is this integer and fits
into 64 bits; any other line is refused by a failure about a value. So every integer is read
back from what is printed for it, and a row of digits that is not too long gives the same
integer whether it is typed or stands in a source text. -/
theorem typed_integer_exact :
    (∀ (line : Text) (n : Int64), ofInput .int line = .ok (.int n) ↔
      WritesWithin line.chars n.toInt) ∧
    (∀ line : Text, (∀ n, ¬ WritesWithin line.chars n) →
      ∃ error, ofInput .int line = .error error ∧
        ∀ name, (Failure.input name error).category = .value) ∧
    (∀ n : Int64, ofInput .int (Value.int n).text = .ok (.int n)) ∧
    ∀ (chunk : String) (line : Int), IsRow chunk.toList → chunk.toList.length ≤ 4300 →
      ∀ n : Int64, ofInput .int chunk = .ok (.int n) ↔
        (Token.classify chunk line).kind = .number ∧
          (Token.classify chunk line).literal = some (.int n) := by
  refine ⟨fun line n => ofInput_int_eq_ok_iff, fun line none => ofInput_int_of_not_written none,
    fun n => ofInput_int_eq_ok_iff.mpr (writesWithin_text n), ?_⟩
  intro chunk line isRow short n
  have parts := Token.classifyParts_of_isRow isRow
  change _ ↔ (Token.classifyParts chunk).1 = .number ∧
    (Token.classifyParts chunk).2 = some (.int n)
  rw [ofInput_int_eq_ok_iff, Text.chars_ofString, parts]
  constructor
  · rintro ⟨row, writes, -, -, upper⟩
    obtain ⟨rfl, value⟩ := writes.unique (.plain isRow)
    have fits : (decimalValue chunk.toList : Int) ≤ greatestInt := by
      rw [greatestInt]
      omega
    rw [if_pos fits, ← value, ofInt_eq, Int64.ofInt_toInt]
    exact ⟨rfl, rfl⟩
  · intro token
    by_cases fits : (decimalValue chunk.toList : Int) ≤ greatestInt
    · rw [if_pos fits, ofInt_eq] at token
      cases token.2
      rw [greatestInt] at fits
      rw [Int64.toInt_ofInt_of_le (by omega) (by omega)]
      exact ⟨_, .plain isRow, short, by omega, by omega⟩
    · rw [if_neg fits] at token
      cases token.1

/-- The least integer behind zeros, an underscore that other readers of integers pass over, and
a row of digits. -/
theorem typed_integer_exact_limits :
    ofInput .int "-0009223372036854775808" = .ok (.int (-9223372036854775808)) ∧
    (Decimal.readInteger "1_0" = .ok 10 ∧ (∀ n, ¬ WritesWithin "1_0".toList n) ∧
      ∃ error, ofInput .int "1_0" = .error error ∧
        ∀ name, (Failure.input name error).category = .value) ∧
    ofInput .int (Value.int (-9223372036854775808)).text = .ok (.int (-9223372036854775808)) ∧
    IsRow "007".toList ∧ ofInput .int "007" = .ok (.int 7) ∧
      (Token.classify "007" 1).kind = .number ∧
      (Token.classify "007" 1).literal = some (.int 7) := by
  obtain ⟨accepted, refused, printed, literal⟩ := typed_integer_exact
  have row : IsRow "0009223372036854775808".toList := Token.isDigits_iff.mp (by decide)
  have value : decimalValue "0009223372036854775808".toList = 9223372036854775808 := by
    rw [← digitsValue_eq]
    decide
  have least := Writes.minus row
  rw [value] at least
  have mixed : ∀ n, ¬ WritesWithin "1_0".toList n := by
    rintro n ⟨row, writes, -⟩
    obtain ⟨negative, split, isRow, -⟩ := writes.splitSign_eq
    cases split
    have underscore := isRow.digits '_' (by decide)
    cases underscore
  have sevens : IsRow "007".toList := Token.isDigits_iff.mp (by decide)
  have seven : Token.classifyParts "007" = (.number, some (.int 7)) := by decide +kernel
  refine ⟨(accepted _ _).mpr ⟨_, least, by decide, by decide, by decide⟩,
    ⟨by decide +kernel, mixed, refused _ mixed⟩, printed _, sevens,
    (literal "007" 1 sevens (by decide) 7).mpr ?_, congrArg Prod.fst seven,
    congrArg Prod.snd seven⟩
  exact ⟨congrArg Prod.fst seven, congrArg Prod.snd seven⟩

end Value

end ToonScript
