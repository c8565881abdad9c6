import ToonScript.Text.Lines
import ToonScript.Token.Chunk
import ToonScript.Token.Vocabulary

/-!
# From source text to tokens

Every chunk becomes one token. The first of these rules that applies gives its kind: a fixed
spelling of the vocabulary; a text between quotes; a row of digits, if its number fits into 64
bits; two rows of digits with a point between them; a word of letters, digits and underscores
that starts with no digit. A chunk to which no rule applies is unknown, which is an error only
when a program reaches it.
-/

set_option autoImplicit false

namespace ToonScript.Token

open ToonScript.Text

/-- The text between the quotes of a chunk that starts and ends with one and holds no line feed.
-/
def quotedSpan? (cs : List Char) : Option String :=
  match cs with
  | '"' :: rest =>
    if rest.getLast? = some '"' && !rest.contains '\n' then
      some (String.ofList rest.dropLast) else none
  | _ => none

/-- Whether a chunk is a row of digits. -/
def isDigits (cs : List Char) : Bool := !cs.isEmpty && cs.all isAsciiDigit

/-- The two rows of digits around the point of a chunk. -/
def splitPoint? (cs : List Char) : Option (List Char × List Char) :=
  let whole := cs.takeWhile isAsciiDigit
  match cs.dropWhile isAsciiDigit with
  | '.' :: fraction =>
      if isDigits whole && isDigits fraction then some (whole, fraction) else none
  | _ => none

/-- Whether a character may start an identifier. -/
def isLetter (c : Char) : Bool :=
  c.isAlpha || c = '_' || "çğıöşüÇĞİÖŞÜ".toList.contains c

/-- Whether a chunk is an identifier. -/
def isIdentifier (cs : List Char) : Bool :=
  match cs with
  | first :: rest => isLetter first && rest.all fun c => isLetter c || isAsciiDigit c
  | [] => false

/-- A row of digits without the zeros in front of it; a row of zeros keeps one of them. -/
def significant (row : List Char) : List Char :=
  match row.dropWhile (· = '0') with
  | [] => ['0']
  | digits => digits

/-- The number of digits of the greatest integer of 64 bits. -/
def greatestDigits : Nat := (Nat.toDigits 10 greatestInt.toNat).length

/-- The integer that a row of digits writes, if it fits into 64 bits. A row with more
significant digits than the greatest integer is settled by its length, so no row is too long to
be read. -/
def rowInteger (row : List Char) : Except Decimal.IntegerFault (Option Int) := do
  let digits := significant row
  if greatestDigits < digits.length then return none
  let n ← Decimal.signedInteger false digits
  return if n ≤ greatestInt then some n else none

/-- The kind and the value of a chunk that has no fixed spelling. -/
def classifyFree (cs : List Char) : Kind × Option Value :=
  match quotedSpan? cs with
  | some text => (.stringLit, some (.string text))
  | none =>
    if isDigits cs then
      match rowInteger cs with
      | .ok (some n) => (.number, some (.ofInt n))
      | _ => (.unknown, none)
    else
      match splitPoint? cs with
      | some (whole, fraction) =>
        (.number, some (.float (Decimal.ofDecimal (whole ++ fraction) (-fraction.length))))
      | none => if isIdentifier cs then (.identifier, none) else (.unknown, none)

/-- The value of a fixed spelling. -/
def fixedLiteral : Kind → Option Value
  | .trueLit => some (.boolean true)
  | .falseLit => some (.boolean false)
  | _ => none

/-- The kind and the value of a chunk. -/
def classifyParts (chunk : String) : Kind × Option Value :=
  match Kind.ofSpelling? chunk with
  | some kind => (kind, fixedLiteral kind)
  | none => classifyFree chunk.toList

/-- A fixed spelling is never a number or a quoted text, so it has a value exactly if its kind
is literal. -/
theorem fixedLiteral_isSome {chunk : String} {kind : Kind}
    (known : Kind.ofSpelling? chunk = some kind) :
    (fixedLiteral kind).isSome = kind.isLiteral := by
  have table : ∀ entry ∈ vocabulary, (fixedLiteral entry.2).isSome = entry.2.isLiteral := by
    decide
  obtain ⟨entry, found, rfl⟩ := Option.map_eq_some_iff.1 known
  exact table entry (List.mem_of_find?_eq_some found)

/-- Exactly the chunks of literal kinds have a value. -/
theorem classifyParts_isSome (chunk : String) :
    (classifyParts chunk).2.isSome = (classifyParts chunk).1.isLiteral := by
  unfold classifyParts
  split
  · next kind known => exact fixedLiteral_isSome known
  · unfold classifyFree
    repeat' split
    all_goals rfl

/-- The token of a chunk on a line. -/
def classify (chunk : String) (line : Int) : Token :=
  ⟨(classifyParts chunk).1, chunk, (classifyParts chunk).2, line, classifyParts_isSome chunk⟩

/-- The value of a chunk is shown by a text that has an encoding, and so is the chunk. -/
theorem classify_encodable (chunk : String) (line : Int) : (classify chunk line).encodable := by
  have value : (classifyParts chunk).2.all (·.text.encodable) := by
    unfold classifyParts
    split
    · next kind _ => cases kind <;> rfl
    · unfold classifyFree
      repeat' split
      all_goals simp [Value.ofInt, Value.text]
  exact Bool.and_eq_true_iff.mpr ⟨Text.encodable_ofString chunk, value⟩

/-- The tokens of one line. -/
def ofLine (line : String) (number : Int) : List Token := (chunks line).map (classify · number)

/-- The tokens of the lines from a given number on. -/
def ofLinesFrom : Int → List String → List Token
  | _, [] => []
  | number, line :: rest => ofLine line number ++ ofLinesFrom (number + 1) rest

/-- Every token is a chunk of one of the lines, with the number of the line. -/
theorem mem_ofLinesFrom {token : Token} {lines : List String} {number : Int}
    (member : token ∈ ofLinesFrom number lines) :
    ∃ chunk line, token = classify chunk line ∧ number ≤ line ∧
      line < number + lines.length := by
  induction lines generalizing number with
  | nil => cases member
  | cons line lines ih =>
      rw [List.length_cons]
      rcases List.mem_append.mp member with here | later
      · obtain ⟨chunk, -, rfl⟩ := List.mem_map.mp here
        exact ⟨chunk, number, rfl, by omega⟩
      · obtain ⟨chunk, line, rfl, bounds⟩ := ih later
        exact ⟨chunk, line, rfl, by omega⟩

/-- The tokens of all lines, which are counted from one. -/
def ofLines (lines : List String) : List Token := ofLinesFrom 1 lines

/-- The tokens of a source text. -/
def ofSource (source : String) : List Token := ofLines (splitLines source)

theorem encodable_of_mem_ofSource {source : String} {token : Token}
    (member : token ∈ ofSource source) :
    token.encodable := by
  obtain ⟨chunk, line, rfl, -⟩ := mem_ofLinesFrom member
  exact classify_encodable chunk line

end ToonScript.Token
