import Mathlib.Data.List.Induction
import Mathlib.Data.List.TakeWhile
import ToonScript.Proofs.Pattern
import ToonScript.Token.Lexer

/-!
# Where a line is cut

A character separates chunks when it is blank and the number of quotes before it, counted from
the start of the line, is even. Two accounts of the chunks are compared here with the scan that
computes them. One is global: the line is cut at all separators at once, and the pieces that are
not empty are kept (`pieces`). The other is local: chunks are the preferred matches of a
pattern, in which a quoted span may lack its closing quote (`chunkPattern`).

`Cuts` tells how a line is made of chunks. Every chunk but the last has an even number of
quotes, so behind it the count starts afresh; that is why the local account comes to the global
one. Everything else follows by induction on `Cuts`: no character between the separators is
lost, an open quote runs to the end of the line, and the chunks of a line with single spaces
between them are cut into the same chunks again (`Token.chunks_by_quote_parity`).
-/

set_option autoImplicit false

namespace ToonScript.Token

open ToonScript.Text

/-! ## Separators -/

/-- Whether a character separates chunks behind the characters before it: it is blank, and the
number of quotes before it is even. -/
def separates (before : List Char) (c : Char) : Bool := isBlank c && before.count '"' % 2 == 0

/-- The characters of a line, each with whether it separates chunks. -/
def marked (line : List Char) : List (Char × Bool) :=
  line.mapIdx fun index c => (c, separates (line.take index) c)

/-- What is left between the separators of a line, where there is something left. -/
def pieces (line : List Char) : List (List Char) :=
  (((marked line).splitOnP Prod.snd).map (List.map Prod.fst)).filter (!·.isEmpty)

/-- No character of a word separates chunks. -/
def Whole (word : List Char) : Prop := ∀ mark ∈ marked word, mark.2 = false

variable {word line front back rest : List Char} {words : List (List Char)} {c : Char}

theorem isBlank_quote : isBlank '"' = false := by decide

theorem ne_quote_of_isBlank (blank : isBlank c = true) : c ≠ '"' := by
  rintro rfl
  rw [isBlank_quote] at blank
  cases blank

theorem separates_nil : separates [] c = isBlank c := by simp [separates]

/-- Behind an even number of quotes the count starts afresh. -/
theorem separates_append (even : front.count '"' % 2 = 0) :
    separates (front ++ back) c = separates back c := by
  simp [separates, List.count_append, Nat.add_mod, even]

theorem marked_append (front back : List Char) :
    marked (front ++ back) =
      marked front ++ back.mapIdx fun index c =>
        (c, separates (front ++ back.take index) c) := by
  rw [marked, List.mapIdx_append]
  congr 1
  · refine List.mapIdx_eq_mapIdx_iff.mpr fun index inside => ?_
    rw [List.take_append_of_le_length (Nat.le_of_lt inside)]
  · refine List.mapIdx_eq_mapIdx_iff.mpr fun index inside => ?_
    rw [Nat.add_comm, List.take_length_add_append]

theorem marked_append_of_even (even : front.count '"' % 2 = 0) :
    marked (front ++ back) = marked front ++ marked back := by
  rw [marked_append, marked]
  simp only [separates_append even]
  rfl

theorem marked_concat : marked (front ++ [c]) = marked front ++ [(c, separates front c)] := by
  rw [marked_append]
  simp

theorem marked_cons_of_isBlank (blank : isBlank c = true) :
    marked (c :: rest) = (c, true) :: marked rest := by
  have even : [c].count '"' % 2 = 0 := by simp [ne_quote_of_isBlank blank]
  rw [← List.singleton_append, marked_append_of_even even]
  simp [marked, separates_nil, blank]

theorem map_fst_marked (line : List Char) : (marked line).map Prod.fst = line := by
  exact List.ext_getElem (by simp [marked]) (by simp [marked])

theorem whole_nil : Whole [] := nofun

theorem whole_concat : Whole (word ++ [c]) ↔ Whole word ∧ separates word c = false := by
  simp only [Whole, marked_concat, List.forall_mem_append, List.forall_mem_singleton]

theorem whole_append (even : front.count '"' % 2 = 0) :
    Whole (front ++ back) ↔ Whole front ∧ Whole back := by
  simp only [Whole, marked_append_of_even even, List.forall_mem_append]

/-! ## The scan, character by character -/

/-- Whether a word has an odd number of quotes. -/
def isOdd (word : List Char) : Bool := word.count '"' % 2 == 1

/-- The scan takes a character that does not separate into the chunk. -/
theorem chunksFrom_of_not_separates (inside : separates word c = false) :
    chunksFrom (isOdd word) word.reverse (c :: rest) =
      chunksFrom (isOdd (word ++ [c])) (word ++ [c]).reverse rest := by
  by_cases quote : c = '"'
  · subst quote
    have flips : isOdd (word ++ ['"']) = !isOdd word := by
      simp only [isOdd, List.count_append, List.count_singleton_self]
      rcases Nat.mod_two_eq_zero_or_one (word.count '"') with
        even | odd <;> simp [Nat.add_mod, *]
    simp [chunksFrom, flips]
  · have keeps : isOdd (word ++ [c]) = isOdd word := by
      simp [isOdd, List.count_append, quote]
    have stays : (isBlank c && !isOdd word) = false := by
      simp only [separates, Bool.and_eq_false_iff, beq_eq_false_iff_ne] at inside ⊢
      refine inside.imp_right fun odd => ?_
      simp only [isOdd, Bool.not_eq_false', beq_iff_eq]
      omega
    simp [chunksFrom, quote, stays, keeps]

/-- The scan ends a chunk at a separator. -/
theorem chunksFrom_of_isBlank (even : word.count '"' % 2 = 0) (blank : isBlank c = true) :
    chunksFrom (isOdd word) word.reverse (c :: rest) =
      if word.isEmpty then chunksFrom false [] rest else word :: chunksFrom false [] rest := by
  simp [chunksFrom, ne_quote_of_isBlank blank, blank, isOdd, even]

/-- The scan takes a whole word into one chunk. -/
theorem chunksFrom_of_whole (whole : Whole word) (rest : List Char) :
    chunksFrom false [] (word ++ rest) = chunksFrom (isOdd word) word.reverse rest := by
  induction word using List.reverseRecOn generalizing rest with
  | nil => rfl
  | append_singleton word c ih =>
      obtain ⟨wholeWord, inside⟩ := whole_concat.mp whole
      rw [List.append_assoc, List.singleton_append, ih wholeWord,
        chunksFrom_of_not_separates inside]

/-! ## Lines made of chunks -/

/-- A line is made of chunks: whole words with blanks between them, where only the last word may
have an odd number of quotes. -/
inductive Cuts : List Char → List (List Char) → Prop where
  | nil : Cuts [] []
  | blank {c : Char} {rest : List Char} {words : List (List Char)} (blank : isBlank c = true)
      (cuts : Cuts rest words) :
      Cuts (c :: rest) words
  | last {word : List Char} (nonempty : word ≠ []) (whole : Whole word) : Cuts word [word]
  | word {word : List Char} {c : Char} {rest : List Char} {words : List (List Char)}
      (nonempty : word ≠ []) (whole : Whole word) (even : word.count '"' % 2 = 0)
      (blank : isBlank c = true) (cuts : Cuts rest words) :
      Cuts (word ++ c :: rest) (word :: words)

/-- With a word under way, the scan finds the chunks of the whole line. -/
theorem cuts_chunksFrom (rest : List Char) :
    ∀ {word : List Char}, Whole word →
      Cuts (word ++ rest) (chunksFrom (isOdd word) word.reverse rest) := by
  induction rest with
  | nil =>
      intro word whole
      rw [List.append_nil]
      by_cases empty : word = []
      · subst empty
        exact .nil
      · simpa [chunksFrom, empty] using Cuts.last empty whole
  | cons c rest ih =>
      intro word whole
      cases separated : separates word c with
      | false =>
          rw [chunksFrom_of_not_separates
            separated, ← List.singleton_append, ← List.append_assoc]
          exact ih (whole_concat.mpr ⟨whole, separated⟩)
      | true =>
          simp only [separates, Bool.and_eq_true, beq_iff_eq] at separated
          obtain ⟨blank, even⟩ := separated
          have behind : Cuts rest (chunksFrom false [] rest) := ih whole_nil
          rw [chunksFrom_of_isBlank even blank]
          by_cases empty : word = []
          · subst empty
            exact .blank blank behind
          · simpa [empty] using Cuts.word empty whole even blank behind

theorem Cuts.chunksFrom_eq (cuts : Cuts line words) : chunksFrom false [] line = words := by
  induction cuts with
  | nil => rfl
  | @blank c rest _ blank _ ih =>
      have none : ([] : List Char).count '"' % 2 = 0 := rfl
      have skipped : chunksFrom false [] (c :: rest) = chunksFrom false [] rest :=
        chunksFrom_of_isBlank none blank
      rw [skipped, ih]
  | last nonempty whole =>
      have scanned := chunksFrom_of_whole whole []
      simpa [chunksFrom, nonempty] using scanned
  | word nonempty whole even blank _ ih =>
      rw [chunksFrom_of_whole whole, chunksFrom_of_isBlank even blank, ih]
      simp [nonempty]

theorem cuts_iff : Cuts line words ↔ words = chunksFrom false [] line := by
  constructor
  · intro cuts
    exact cuts.chunksFrom_eq.symm
  · rintro rfl
    exact cuts_chunksFrom line whole_nil

namespace Cuts

/-- The chunks are the pieces between the separators. -/
theorem pieces_eq (cuts : Cuts line words) : pieces line = words := by
  induction cuts with
  | nil => simp [pieces, marked]
  | blank blank _ ih =>
      rw [pieces, marked_cons_of_isBlank blank, List.splitOnP_cons_eq_if_modifyHead]
      simpa [pieces] using ih
  | last nonempty whole =>
      rw [pieces, List.splitOnP_eq_singleton whole]
      simp [map_fst_marked, nonempty]
  | word nonempty whole even blank _ ih =>
      rw [pieces, marked_append_of_even even, marked_cons_of_isBlank blank,
        List.splitOnP_append_cons_of_forall_mem whole _ rfl]
      simpa [pieces, map_fst_marked, nonempty] using ih

/-- The chunks hold the characters that do not separate, once each and in their order. -/
theorem flatten_eq (cuts : Cuts line words) :
    words.flatten = ((marked line).filter (!·.2)).map Prod.fst := by
  have kept : ∀ {word : List Char}, Whole word →
      ((marked word).filter (!·.2)).map Prod.fst = word := by
    intro word whole
    rw [List.filter_eq_self.mpr fun mark member => by rw [whole mark member]; rfl,
      map_fst_marked]
  induction cuts with
  | nil => rfl
  | blank blank _ ih => simpa [marked_cons_of_isBlank blank] using ih
  | last _ whole => simp [kept whole]
  | word _ whole even blank _ ih =>
      rw [marked_append_of_even even, marked_cons_of_isBlank blank]
      simp [kept whole, ih]

/-- Only the last chunk may have an odd number of quotes. -/
theorem even_of_mem_dropLast (cuts : Cuts line words) :
    ∀ word ∈ words.dropLast, word.count '"' % 2 = 0 := by
  induction cuts with
  | nil | last => nofun
  | blank _ _ ih => exact ih
  | @word word _ _ words _ _ even _ _ ih =>
      intro other member
      by_cases none : words = []
      · subst none
        cases member
      · rw [List.dropLast_cons_of_ne_nil none] at member
        rcases List.mem_cons.mp member with rfl | later
        · exact even
        · exact ih other later

/-- A quote that is opened and not closed is in the last chunk, with everything behind it. -/
theorem getLast?_of_open {before after : List Char} (cuts : Cuts line words)
    (opened : line = before ++ '"' :: after) (even : before.count '"' % 2 = 0)
    (unclosed : '"' ∉ after) :
    ∃ opening, opening <:+ before ∧ words.getLast? = some (opening ++ '"' :: after) := by
  induction cuts generalizing before with
  | nil => exact absurd opened.symm (by simp)
  | @blank c rest words blank _ ih =>
      cases before with
      | nil =>
          cases opened
          rw [isBlank_quote] at blank
          cases blank
      | cons first before =>
          cases opened
          have evenTail : before.count '"' % 2 = 0 := by
            rwa [List.count_cons_of_ne (ne_quote_of_isBlank blank)] at even
          obtain ⟨opening, suffix, isLast⟩ := ih rfl evenTail
          exact ⟨opening, suffix.trans (List.suffix_cons _ _), isLast⟩
  | @last word _ _ => exact ⟨before, List.suffix_refl _, by rw [opened]; rfl⟩
  | @word word c rest words _ _ evenWord blank _ ih =>
      rcases List.append_eq_append_iff.mp opened with
        ⟨inner, rfl, behind⟩ | ⟨inner, rfl, behind⟩
      · -- the quote stands behind the word, and behind the blank that follows it
        cases inner with
        | nil =>
            cases behind
            rw [isBlank_quote] at blank
            cases blank
        | cons first inner =>
            cases behind
            have evenTail : inner.count '"' % 2 = 0 := by
              rw [List.count_append, List.count_cons_of_ne (ne_quote_of_isBlank blank)] at even
              omega
            obtain ⟨opening, suffix, isLast⟩ := ih rfl evenTail
            refine ⟨opening, suffix.trans ⟨word ++ [c], by simp⟩, ?_⟩
            rw [List.getLast?_cons, isLast]
            rfl
      · -- the quote would stand in the word, which then had an odd number of quotes
        cases inner with
        | nil =>
            cases behind
            rw [isBlank_quote] at blank
            cases blank
        | cons first inner =>
            cases behind
            have none : inner.count '"' = 0 :=
              List.count_eq_zero.mpr fun member => unclosed (by simp [member])
            rw [List.count_append, List.count_cons_self, none] at evenWord
            omega

/-- The chunks with single spaces between them are cut into the same chunks. -/
theorem intercalate (cuts : Cuts line words) : Cuts ([' '].intercalate words) words := by
  induction cuts with
  | nil => exact .nil
  | blank _ _ ih => exact ih
  | last nonempty whole =>
      rw [List.intercalate_singleton]
      exact .last nonempty whole
  | @word word _ _ words nonempty whole even _ _ ih =>
      by_cases none : words = []
      · subst none
        rw [List.intercalate_singleton]
        exact .last nonempty whole
      · rw [List.intercalate_cons_of_ne_nil none, List.append_assoc, List.singleton_append]
        exact .word nonempty whole even (by decide) ih

end Cuts

/-! ## The pattern of a chunk -/

/-- Whether a character stands for itself: it is neither blank nor a quote. -/
def isBare (c : Char) : Bool := !isBlank c && c != '"'

/-- A stretch of bare characters, or a quote and all up to the next one, which may be missing.
-/
def partPattern : Pattern :=
  .choice (.oneOrMore (.one isBare))
    (.seq (.one (· == '"')) (.seq (.many (.one (· != '"'))) (.optional (.one (· == '"')))))

/-- A chunk: at least one bare stretch or quoted span. -/
def chunkPattern : Pattern := .oneOrMore partPattern

theorem partPattern_fails_nil : partPattern.Fails [] :=
  Pattern.Fails.choice (Pattern.Fails.oneOrMore Pattern.one_fails_nil)
    (Pattern.Fails.seq Pattern.one_fails_nil)

theorem partPattern_fails_of_isBlank (blank : isBlank c = true) :
    partPattern.Fails (c :: rest) := by
  refine Pattern.Fails.choice (Pattern.Fails.oneOrMore (Pattern.one_fails_cons ?_))
    (Pattern.Fails.seq (Pattern.one_fails_cons ?_))
  · simp [isBare, blank]
  · simpa using ne_quote_of_isBlank blank

theorem partPattern_of_isBare (bare : isBare c = true) :
    partPattern.Prefers (c :: rest) (rest.dropWhile isBare) :=
  ((Pattern.one_prefers bare).oneOrMore (Pattern.many_one_prefers isBare rest)).choice

/-- What is preferred of a quoted span, by what stands behind the characters up to the next
quote. -/
theorem partPattern_of_quote {after : List Char}
    (ends : (Pattern.optional (.one (· == '"'))).Prefers (rest.dropWhile (· != '"')) after) :
    partPattern.Prefers ('"' :: rest) after := by
  refine Pattern.Fails.choice_prefers (Pattern.Fails.oneOrMore (Pattern.one_fails_cons rfl)) ?_
  exact (Pattern.one_prefers rfl).seq ((Pattern.many_one_prefers _ rest).seq ends)

theorem partPattern_of_closed (closed : '"' ∉ front) :
    partPattern.Prefers ('"' :: (front ++ '"' :: back)) back := by
  apply partPattern_of_quote
  have stops : (front ++ '"' :: back).dropWhile (· != '"') = '"' :: back := by
    have passed : ∀ c ∈ front, (c != '"') = true :=
      fun c member => bne_iff_ne.mpr fun same => closed (same ▸ member)
    rw [List.dropWhile_append_of_pos passed]
    rfl
  rw [stops]
  exact (Pattern.one_prefers rfl).optional

theorem partPattern_of_open (unclosed : '"' ∉ rest) : partPattern.Prefers ('"' :: rest) [] := by
  apply partPattern_of_quote
  have stops : rest.dropWhile (· != '"') = [] := by
    rw [List.dropWhile_eq_nil_iff]
    exact fun c member => bne_iff_ne.mpr fun same => unclosed (same ▸ member)
  rw [stops]
  exact Pattern.Fails.optional Pattern.one_fails_nil

/-- What stands behind a word ends it: nothing at all, or a blank if the word has an even number
of quotes. -/
inductive Closes (word : List Char) : List Char → Prop where
  | nothing : Closes word []
  | blank {c : Char} {rest : List Char} (even : word.count '"' % 2 = 0)
      (blank : isBlank c = true) :
      Closes word (c :: rest)

theorem Closes.of_even (closes : Closes (front ++ back) rest) (even : front.count '"' % 2 = 0) :
    Closes back rest := by
  cases closes with
  | nothing => exact .nothing
  | blank evenBoth blank =>
      rw [List.count_append] at evenBoth
      exact .blank (by omega) blank

/-- Nothing behind a word is bare. -/
theorem Closes.dropWhile_eq (closes : Closes word rest) : rest.dropWhile isBare = rest := by
  cases closes with
  | nothing => rfl
  | blank _ blank => exact List.dropWhile_cons_of_neg (by simp [isBare, blank])

theorem count_quoted (closed : '"' ∉ front) : ('"' :: (front ++ ['"'])).count '"' % 2 = 0 := by
  simp [List.count_append, List.count_eq_zero.mpr closed]

/-- A whole word starts with a bare stretch, with a quoted span or with an open quote. -/
theorem Whole.parts (whole : Whole (c :: word)) :
    (isBare c = true ∧ Whole (word.dropWhile isBare) ∧
      (c :: word.takeWhile isBare).count '"' % 2 = 0) ∨
      c = '"' ∧ ((∃ front back, word = front ++ '"' :: back ∧ '"' ∉ front ∧ Whole back) ∨
        '"' ∉ word) := by
  by_cases quote : c = '"'
  · subst quote
    refine .inr ⟨rfl, ?_⟩
    by_cases closed : '"' ∈ word
    · obtain ⟨front, back, rfl, first⟩ := List.eq_append_cons_of_mem closed
      have split : '"' :: (front ++ '"' :: back) = '"' :: (front ++ ['"']) ++ back := by simp
      rw [split, whole_append (count_quoted first)] at whole
      exact .inl ⟨front, back, rfl, first, whole.2⟩
    · exact .inr closed
  · have notBlank : isBlank c = false := by
      refine Bool.eq_false_iff.mpr fun blank => ?_
      have marks :=
        whole (c, true) (by rw [marked_cons_of_isBlank blank]; exact List.mem_cons_self)
      cases marks
    have even : (c :: word.takeWhile isBare).count '"' % 2 = 0 := by
      have none : '"' ∉ word.takeWhile isBare := fun member => by
        have bare := List.mem_takeWhile_imp member
        cases bare
      rw [List.count_cons_of_ne quote, List.count_eq_zero.mpr none]
    have split : c :: word = (c :: word.takeWhile isBare) ++ word.dropWhile isBare := by simp
    rw [split, whole_append even] at whole
    exact .inl ⟨by simp [isBare, notBlank, quote], whole.2, even⟩

/-- The preferred part at the start of a whole word lies within the word, and leaves a whole
word. -/
theorem exists_part (nonempty : word ≠ []) (whole : Whole word) (closes : Closes word rest) :
    ∃ tail, partPattern.Prefers (word ++ rest) (tail ++ rest) ∧
      tail.length < word.length ∧ Whole tail ∧
      Closes tail rest := by
  cases word with
  | nil => exact absurd rfl nonempty
  | cons c word =>
      rcases whole.parts with ⟨bare, wholeRest, even⟩
        | ⟨rfl, ⟨front, back, rfl, first, wholeBack⟩ | unclosed⟩
      · have closesRest : Closes (word.dropWhile isBare) rest :=
          Closes.of_even (by simpa using closes) even
        have passed : (word ++ rest).dropWhile isBare = word.dropWhile isBare ++ rest := by
          rw [List.dropWhile_append, closes.dropWhile_eq]
          split
          · next none => rw [List.isEmpty_iff.mp none, List.nil_append]
          · rfl
        have part : partPattern.Prefers (c :: (word ++ rest))
          ((word ++ rest).dropWhile isBare) :=
          partPattern_of_isBare bare
        rw [passed] at part
        exact ⟨_, part, Nat.lt_succ_of_le (List.length_dropWhile_le isBare word),
          wholeRest, closesRest⟩
      · have closesBack : Closes back rest :=
          Closes.of_even (by simpa using closes) (count_quoted first)
        have part : partPattern.Prefers ('"' :: (front ++ '"' :: (back ++ rest)))
          (back ++ rest) :=
          partPattern_of_closed first
        refine ⟨back, by simpa using part, ?_, wholeBack, closesBack⟩
        simp only [List.length_cons, List.length_append]
        omega
      · -- a word with one quote is closed by nothing but the end of the line
        cases closes with
        | nothing =>
            rw [List.append_nil]
            exact ⟨[], partPattern_of_open unclosed, Nat.zero_lt_succ _, whole_nil, .nothing⟩
        | blank even _ =>
            rw [List.count_cons_self, List.count_eq_zero.mpr unclosed] at even
            omega

/-- The parts of a whole word are preferred one after the other, up to what ends the word. -/
theorem many_partPattern (word : List Char) (whole : Whole word) (closes : Closes word rest) :
    (Pattern.many partPattern).Prefers (word ++ rest) rest := by
  induction length : word.length using Nat.strongRecOn generalizing word with
  | ind n ih =>
      by_cases nonempty : word = []
      · subst nonempty
        cases closes with
        | nothing => exact partPattern_fails_nil.many
        | blank _ blank => exact (partPattern_fails_of_isBlank blank).many
      · obtain ⟨tail, part, shorter, wholeTail, closesTail⟩ := exists_part nonempty whole closes
        refine part.many ?_ (ih _ (length ▸ shorter) tail wholeTail closesTail rfl)
        simpa only [List.length_append, Nat.add_lt_add_iff_right] using shorter

theorem chunkPattern_prefers (nonempty : word ≠ []) (whole : Whole word)
    (closes : Closes word rest) :
    chunkPattern.Prefers (word ++ rest) rest := by
  obtain ⟨tail, part, -, wholeTail, closesTail⟩ := exists_part nonempty whole closes
  exact part.oneOrMore (many_partPattern tail wholeTail closesTail)

/-- The chunks are the preferred matches of their pattern, with blanks between them. -/
theorem Cuts.scans (cuts : Cuts line words) : chunkPattern.Scans isBlank line words := by
  induction cuts with
  | nil => exact .done
  | blank blank _ ih => exact .ignored (partPattern_fails_of_isBlank blank).oneOrMore blank ih
  | @last word nonempty whole =>
      have scans : chunkPattern.Scans isBlank (word ++ []) [word] :=
        .found (chunkPattern_prefers nonempty whole .nothing) nonempty .done
      rwa [List.append_nil] at scans
  | word nonempty whole even blank _ ih =>
      refine .found (chunkPattern_prefers nonempty whole (.blank even blank)) nonempty ?_
      exact .ignored (partPattern_fails_of_isBlank blank).oneOrMore blank ih

/-! ## Lines and their tokens -/

theorem map_toList_chunks (line : String) :
    (chunks line).map String.toList = chunksFrom false [] line.toList := by
  simp [chunks, Function.comp_def]

theorem chunks_intercalate (line : String) :
    chunks (" ".intercalate (chunks line)) = chunks line := by
  have again := (cuts_iff.mpr rfl : Cuts line.toList _).intercalate.chunksFrom_eq
  rw [chunks, String.toList_intercalate, map_toList_chunks]
  exact congrArg (List.map String.ofList) again

theorem lexeme_ofLine (line : String) (number : Int) :
    (ofLine line number).map Token.lexeme = (chunks line).map Text.ofString := by
  simp [ofLine, classify, Function.comp_def]

/-- **A line is cut by the parity of its quotes.** Its chunks are the pieces between the blanks
that stand behind an even number of quotes, and nothing but the preferred matches of the pattern
of a chunk. So the chunks hold every other character once and in its order; all chunks but the
last have an even number of quotes; and a quote that is not closed runs to the end of the line.
The tokens of a line, written with single spaces between them, are the tokens of what is
written. -/
theorem chunks_by_quote_parity (line : String) (number : Int) :
    (chunks line).map String.toList = pieces line.toList ∧
    (∀ found, chunkPattern.Scans isBlank line.toList found ↔
      found = (chunks line).map String.toList) ∧
    ((chunks line).map String.toList).flatten =
      ((marked line.toList).filter (!·.2)).map Prod.fst ∧
    (∀ chunk ∈ (chunks line).dropLast, chunk.toList.count '"' % 2 = 0) ∧
    (∀ before after, line.toList = before ++ '"' :: after →
      before.count '"' % 2 = 0 → '"' ∉ after →
      ∃ opening, opening <:+ before ∧
        (chunks line).getLast? = some (String.ofList (opening ++ '"' :: after))) ∧
    (ofLine line number).map Token.lexeme = (chunks line).map Text.ofString ∧
    ofLine (" ".intercalate (chunks line)) number = ofLine line number := by
  have cuts : Cuts line.toList ((chunks line).map String.toList) :=
    cuts_iff.mpr (map_toList_chunks line)
  refine ⟨cuts.pieces_eq.symm, fun found => ⟨fun scans => scans.unique cuts.scans, ?_⟩,
    cuts.flatten_eq, ?_, ?_, lexeme_ofLine line number, ?_⟩
  · rintro rfl
    exact cuts.scans
  · intro chunk member
    apply cuts.even_of_mem_dropLast
    rw [← List.map_dropLast]
    exact List.mem_map_of_mem member
  · intro before after opened even unclosed
    obtain ⟨opening, suffix, isLast⟩ := cuts.getLast?_of_open opened even unclosed
    rw [List.getLast?_map] at isLast
    obtain ⟨chunk, isLast, spelled⟩ := Option.map_eq_some_iff.mp isLast
    exact ⟨opening, suffix, by rw [isLast, ← spelled, String.ofList_toList]⟩
  · rw [ofLine, chunks_intercalate]
    rfl

/-- Two chunks, with a quoted blank in the middle of the first one and an open quote in the
second. -/
theorem chunks_by_quote_parity_open :
    chunks "a\" b\"c \t\"d e " = ["a\" b\"c", "\"d e "] ∧
    pieces "a\" b\"c \t\"d e ".toList = ["a\" b\"c".toList, "\"d e ".toList] ∧
    (∃ opening, opening <:+ "a\" b\"c \t".toList ∧
      (chunks "a\" b\"c \t\"d e ").getLast? =
        some (String.ofList (opening ++ '"' :: "d e ".toList))) ∧
    ofLine "a\" b\"c \"d e " 3 = ofLine "a\" b\"c \t\"d e " 3 := by
  have cut : chunks "a\" b\"c \t\"d e " = ["a\" b\"c", "\"d e "] := by decide +kernel
  obtain ⟨global, -, -, -, unclosed, -, again⟩ := chunks_by_quote_parity "a\" b\"c \t\"d e " 3
  rw [cut] at global
  rw [cut] at again
  exact ⟨cut, global.symm,
    unclosed "a\" b\"c \t".toList "d e ".toList (by decide) (by decide) (by decide), again⟩

end ToonScript.Token
