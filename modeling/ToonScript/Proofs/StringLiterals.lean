import ToonScript.Proofs.Chunks

/-!
# Quoted texts of a line

A chunk is cut so that its quotes pair up from left to right, but whether it is a text literal
is judged by its two ends alone: it starts with a quote, ends with another one and holds no line
feed (`quotedSpan?_eq_some_iff`). The two views agree on chunks with at most two quotes. A chunk
with more of them is a literal too if two of them are at its ends, and then the other ones
belong to the text; so several spans side by side are taken for one, and so is a span followed
by a stray quote.

`Token.string_literals_by_ends` says which texts are literals of a line: those without a line
feed in which no blank stands between two quoted stretches (`Spaced`). The text of a literal
holds a quote exactly if the chunk has more than two.
-/

set_option autoImplicit false

namespace ToonScript.Token

open ToonScript.Text

/-- A text between quotes. -/
def enquote (text : String) : String := "\"" ++ text ++ "\""

theorem toList_enquote (text : String) :
    (enquote text).toList = '"' :: (text.toList ++ ['"']) := by
  simp [enquote, String.toList_append]

theorem eq_enquote_iff {chunk text : String} :
    chunk = enquote text ↔ chunk.toList = '"' :: (text.toList ++ ['"']) := by
  rw [← toList_enquote, String.toList_inj]

theorem enquote_inj {text other : String} : enquote text = enquote other ↔ text = other := by
  rw [eq_enquote_iff, toList_enquote, List.cons.injEq, List.append_left_inj, String.toList_inj]
  exact and_iff_right rfl

/-! ## The two ends of a chunk -/

variable {cs : List Char} {chunk text : String}

/-- A chunk is a quoted text by its two ends. -/
theorem quotedSpan?_eq_some_iff :
    quotedSpan? cs = some text ↔ cs = '"' :: (text.toList ++ ['"']) ∧ '\n' ∉ text.toList := by
  constructor
  · intro span
    unfold quotedSpan? at span
    split at span
    · next rest =>
        split at span
        · next ends =>
            cases span
            simp only [Bool.and_eq_true, decide_eq_true_eq, Bool.not_eq_true',
              List.contains_eq_mem, decide_eq_false_iff_not] at ends
            obtain ⟨closed, unbroken⟩ := ends
            obtain ⟨front, rfl⟩ := List.getLast?_eq_some_iff.mp closed
            rw [List.dropLast_concat, String.toList_ofList]
            exact ⟨rfl, fun inside => unbroken (List.mem_append_left _ inside)⟩
        · cases span
    · cases span
  · rintro ⟨rfl, unbroken⟩
    simp [quotedSpan?, unbroken]

theorem isAsciiDigit_quote : isAsciiDigit '"' = false := by decide

/-- No fixed spelling holds a quote. -/
theorem ofSpelling?_of_quote (quote : '"' ∈ chunk.toList) : Kind.ofSpelling? chunk = none := by
  have unquoted : ∀ entry ∈ vocabulary, entry.1.toList.contains '"' = false := by decide
  exact Kind.ofSpelling?_eq_none (fun text => text.toList.contains '"') unquoted
    (List.contains_iff_mem.mpr quote)

theorem isDigits_of_quote (quote : '"' ∈ cs) : isDigits cs = false := by
  refine Bool.eq_false_iff.mpr fun digits => ?_
  simp only [isDigits, Bool.and_eq_true, List.all_eq_true] at digits
  have digit := digits.2 '"' quote
  rw [isAsciiDigit_quote] at digit
  cases digit

theorem splitPoint?_of_quote (quote : '"' ∈ cs) : splitPoint? cs = none := by
  rw [splitPoint?]
  split
  · next fraction behind =>
      rw [if_neg]
      intro digits
      rw [Bool.and_eq_true] at digits
      rw [← List.takeWhile_append_dropWhile (p := isAsciiDigit) (l := cs), behind,
        List.mem_append, List.mem_cons] at quote
      rcases quote with whole | point | after
      · rw [isDigits_of_quote whole] at digits
        cases digits.1
      · cases point
      · rw [isDigits_of_quote after] at digits
        cases digits.2
  · rfl

theorem isIdentifier_of_quote (quote : '"' ∈ cs) : isIdentifier cs = false := by
  have other : (isLetter '"' || isAsciiDigit '"') = false := by decide
  cases cs with
  | nil => rfl
  | cons first rest =>
      refine Bool.eq_false_iff.mpr fun word => ?_
      simp only [isIdentifier, Bool.and_eq_true, List.all_eq_true] at word
      rcases List.mem_cons.mp quote with rfl | inside
      · rw [Bool.or_eq_false_iff] at other
        rw [other.1] at word
        cases word.1
      · have letter := word.2 '"' inside
        rw [other] at letter
        cases letter

theorem classifyParts_of_span (span : quotedSpan? chunk.toList = some text) :
    classifyParts chunk = (.stringLit, some (.string text)) := by
  have quote : '"' ∈ chunk.toList := by
    rw [(quotedSpan?_eq_some_iff.mp span).1]
    exact List.mem_cons_self
  rw [classifyParts, ofSpelling?_of_quote quote]
  simp only [classifyFree, span]

/-- A chunk that holds a quote and is no quoted text is unknown. -/
theorem classifyParts_of_not_span (quote : '"' ∈ chunk.toList)
    (none : quotedSpan? chunk.toList = none) :
    classifyParts chunk = (.unknown, .none) := by
  rw [classifyParts, ofSpelling?_of_quote quote]
  simp [classifyFree, none, isDigits_of_quote quote, splitPoint?_of_quote quote,
    isIdentifier_of_quote quote]

/-- Nothing but a quoted text is a text literal. -/
theorem classifyParts_eq_stringLit_iff :
    (classifyParts chunk).1 = .stringLit ↔ ∃ text, chunk = enquote text ∧
      '\n' ∉ text.toList := by
  constructor
  · intro literal
    cases span : quotedSpan? chunk.toList with
    | some text =>
        obtain ⟨ends, unbroken⟩ := quotedSpan?_eq_some_iff.mp span
        exact ⟨text, eq_enquote_iff.mpr ends, unbroken⟩
    | none =>
        exfalso
        unfold classifyParts at literal
        split at literal
        · next kind known =>
            have table : ∀ entry ∈ vocabulary, entry.2 ≠ .stringLit := by decide
            obtain ⟨entry, found, rfl⟩ := Option.map_eq_some_iff.1 known
            exact table entry (List.mem_of_find?_eq_some found) literal
        · simp only [classifyFree, span] at literal
          repeat' split at literal
          all_goals cases literal
  · rintro ⟨text, same, unbroken⟩
    have span := quotedSpan?_eq_some_iff.mpr ⟨eq_enquote_iff.mp same, unbroken⟩
    rw [classifyParts_of_span span]

/-! ## Blanks inside a chunk -/

theorem whole_iff {word : List Char} :
    Whole word ↔ ∀ before c after, word = before ++ c :: after →
      separates before c = false := by
  constructor
  · rintro whole before c after rfl
    refine whole (c, separates before c) ?_
    rw [marked_append, List.mapIdx_cons, List.take_zero, List.append_nil]
    exact List.mem_append_right _ List.mem_cons_self
  · intro inside mark member
    obtain ⟨index, within, rfl⟩ := List.mem_mapIdx.mp member
    refine inside _ _ (word.drop (index + 1)) ?_
    rw [List.getElem_cons_drop, List.take_append_drop]

/-- The blanks of a text stand behind an even number of its quotes, that is inside the quoted
stretches of the chunk that is made of the text and a quote at each end. -/
def Spaced (text : List Char) : Prop :=
  ∀ before c after, text = before ++ c :: after → isBlank c = true → before.count '"' % 2 = 0

theorem whole_enquote_iff : Whole ('"' :: (cs ++ ['"'])) ↔ Spaced cs := by
  have parity : ∀ {before c}, separates ('"' :: before) c = false ↔
      (isBlank c = true → before.count '"' % 2 = 0) := by
    intro before c
    simp only [separates, List.count_cons_self, Bool.and_eq_false_imp, beq_eq_false_iff_ne]
    exact imp_congr_right fun _ => by omega
  rw [whole_iff]
  constructor
  · rintro inside before c after rfl
    exact parity.mp (inside ('"' :: before) c (after ++ ['"']) (by simp))
  · intro spaced before c after split
    cases before with
    | nil =>
        cases split
        simp [separates, isBlank_quote]
    | cons first before =>
        obtain ⟨rfl, behind⟩ := List.cons.inj split
        refine parity.mpr fun blank => ?_
        rcases List.eq_nil_or_concat after with rfl | ⟨after, last, rfl⟩
        · -- the last character is the closing quote
          obtain ⟨-, same⟩ := List.append_inj' behind rfl
          cases same
          rw [isBlank_quote] at blank
          cases blank
        · have regrouped : cs ++ ['"'] = (before ++ c :: after) ++ [last] := by
            simpa using behind
          obtain ⟨same, -⟩ := List.append_inj' regrouped rfl
          exact spaced before c after same blank

/-- Every chunk of a line is a whole word. -/
theorem Cuts.whole_of_mem {line : List Char} {words : List (List Char)}
    (cuts : Cuts line words) :
    ∀ word ∈ words, Whole word := by
  induction cuts with
  | nil => nofun
  | blank _ _ ih => exact ih
  | last _ whole =>
      intro word member
      rwa [List.mem_singleton.mp member]
  | word _ whole _ _ _ ih =>
      intro word member
      rcases List.mem_cons.mp member with rfl | later
      · exact whole
      · exact ih word later

theorem whole_of_mem_chunks {line : String} (member : chunk ∈ chunks line) :
    Whole chunk.toList := by
  have cuts : Cuts line.toList ((chunks line).map String.toList) :=
    cuts_iff.mpr (map_toList_chunks line)
  exact cuts.whole_of_mem _ (List.mem_map_of_mem member)

/-- A whole word is the only chunk of the line that it makes. -/
theorem chunks_of_whole (nonempty : chunk.toList ≠ []) (whole : Whole chunk.toList) :
    chunks chunk = [chunk] := by
  rw [chunks, (Cuts.last nonempty whole).chunksFrom_eq, List.map_singleton,
    String.ofList_toList]

/-- **A text literal is judged by its ends.** A token of a line is a text literal if and only if
it starts with a quote, ends with another one and holds no line feed; its value is what stands
between the two, and this holds a quote exactly if the token has more than two. A token with a
quote that is no text literal is unknown. The texts of literals are those without a line feed
whose blanks stand behind an even number of their quotes. -/
theorem string_literals_by_ends (line : String) (number : Int) :
    (∀ token ∈ ofLine line number,
      (token.kind = .stringLit ↔ ∃ text, token.lexeme = enquote text ∧ '\n' ∉ text.toList) ∧
      ('"' ∈ token.lexeme.chars → token.kind ≠ .stringLit → token.kind = .unknown ∧
        token.literal = none) ∧
      ∀ text, token.kind = .stringLit → token.lexeme = enquote text →
        token.literal = some (.string text) ∧
        ('"' ∈ text.toList ↔ 2 < token.lexeme.chars.count '"') ∧ Spaced text.toList) ∧
    ∀ text, '\n' ∉ text.toList → Spaced text.toList →
      ∃ token, ofLine (enquote text) number = [token] ∧ token.kind = .stringLit ∧
        token.literal = some (.string text) := by
  constructor
  · intro token member
    obtain ⟨chunk, cut, rfl⟩ := List.mem_map.mp member
    have lexeme : (classify chunk number).lexeme = chunk := rfl
    simp only [lexeme, Text.ofString_inj, Text.chars_ofString]
    refine ⟨classifyParts_eq_stringLit_iff, ?_, ?_⟩
    · intro quote other
      cases span : quotedSpan? chunk.toList with
      | some text => exact absurd (congrArg Prod.fst (classifyParts_of_span span)) other
      | none =>
          have parts := classifyParts_of_not_span quote span
          exact ⟨congrArg Prod.fst parts, congrArg Prod.snd parts⟩
    · intro text literal spelled
      obtain ⟨inner, written, unbroken⟩ := classifyParts_eq_stringLit_iff.mp literal
      obtain rfl : text = inner := enquote_inj.mp (spelled.symm.trans written)
      have ends := eq_enquote_iff.mp written
      have parts := classifyParts_of_span (quotedSpan?_eq_some_iff.mpr ⟨ends, unbroken⟩)
      have whole := whole_of_mem_chunks cut
      rw [ends] at whole
      refine ⟨congrArg Prod.snd parts, ?_, whole_enquote_iff.mp whole⟩
      rw [ends]
      simp [List.count_append, ← List.count_pos_iff]
  · intro text unbroken spaced
    have span := quotedSpan?_eq_some_iff.mpr ⟨toList_enquote text, unbroken⟩
    have alone : chunks (enquote text) = [enquote text] := by
      apply chunks_of_whole
      · simp [toList_enquote]
      · rw [toList_enquote]
        exact whole_enquote_iff.mpr spaced
    refine ⟨classify (enquote text) number, by rw [ofLine, alone]; rfl, ?_⟩
    exact ⟨congrArg Prod.fst (classifyParts_of_span span),
      congrArg Prod.snd (classifyParts_of_span span)⟩

/-- Two spans side by side with a blank in the first one, and a word with a stray quote behind
them. -/
theorem string_literals_by_ends_adjacent :
    (classify "\"a b\"\"c\"" 1 ∈ ofLine "\"a b\"\"c\" x\"" 1 ∧
      (classify "\"a b\"\"c\"" 1).kind = .stringLit ∧
      (classify "\"a b\"\"c\"" 1).literal = some (.string "a b\"\"c")) ∧
    (classify "x\"" 1 ∈ ofLine "\"a b\"\"c\" x\"" 1 ∧ (classify "x\"" 1).kind = .unknown) ∧
    ∃ token, ofLine (enquote "a\"b") 1 = [token] ∧ token.kind = .stringLit ∧
      token.literal = some (.string "a\"b") := by
  have cut : chunks "\"a b\"\"c\" x\"" = ["\"a b\"\"c\"", "x\""] := by decide +kernel
  obtain ⟨tokens, -⟩ := string_literals_by_ends "\"a b\"\"c\" x\"" 1
  obtain ⟨-, made⟩ := string_literals_by_ends "" 1
  rw [ofLine, cut, List.map_cons, List.map_singleton] at tokens ⊢
  obtain ⟨ends, -, value⟩ := tokens (classify "\"a b\"\"c\"" 1) (by simp)
  obtain ⟨-, stray, -⟩ := tokens (classify "x\"" 1) (by simp)
  have literal := ends.mpr ⟨"a b\"\"c", by decide, by decide⟩
  have spaced : Spaced "a\"b".toList := by
    intro before c after split blank
    have none : "a\"b".toList.all (!isBlank ·) = true := by decide
    have bare := List.all_eq_true.mp none c (by simp [split])
    rw [blank] at bare
    cases bare
  refine ⟨⟨by simp, literal, (value _ literal (by decide)).1⟩, ⟨by simp, ?_⟩,
    made _ (by decide) spaced⟩
  exact (stray (by decide) (by decide +kernel)).1

/-- Two spans side by side, and a span with a stray quote at its end, are each one literal whose
text holds quotes. So it is not the case that a text literal is always one quoted span, nor that
its quotes always pair up. -/
theorem string_literal_holds_quotes :
    (ofLine "\"a\"\"b\"" 1).map (fun token => (token.kind, token.lexeme, token.literal)) =
      [(Kind.stringLit, ("\"a\"\"b\"" : Text), some (Value.string "a\"\"b"))] ∧
    (ofLine "\"a\"b\"" 1).map (fun token => (token.kind, token.lexeme, token.literal)) =
      [(Kind.stringLit, ("\"a\"b\"" : Text), some (Value.string "a\"b"))] ∧
    ¬ (∀ (line : String) (number : Int), ∀ token ∈ ofLine line number, token.kind = .stringLit →
      ∃ text, token.lexeme = enquote text ∧ token.literal = some (.string text) ∧
        '"' ∉ text.toList) ∧
    ¬ ∀ (line : String) (number : Int), ∀ token ∈ ofLine line number,
      token.lexeme.chars.count '"' % 2 = 1 →
      token.kind = .unknown := by
  have pair : chunks "\"a\"\"b\"" = ["\"a\"\"b\""] := by decide +kernel
  have odd : chunks "\"a\"b\"" = ["\"a\"b\""] := by decide +kernel
  refine ⟨by decide +kernel, by decide +kernel, ?_, ?_⟩
  · intro spans
    obtain ⟨text, spelled, -, unquoted⟩ := spans "\"a\"\"b\"" 1 (classify "\"a\"\"b\"" 1)
      (by rw [ofLine, pair]; exact List.mem_cons_self) (by decide +kernel)
    obtain rfl : "a\"\"b" = text := enquote_inj.mp (Text.ofString_inj.mp spelled)
    exact unquoted (by decide)
  · intro closed
    have unknown := closed "\"a\"b\"" 1 (classify "\"a\"b\"" 1)
      (by rw [ofLine, odd]; exact List.mem_cons_self) (by decide)
    have literal : (classify "\"a\"b\"" 1).kind = .stringLit := by decide +kernel
    rw [literal] at unknown
    cases unknown

end ToonScript.Token
