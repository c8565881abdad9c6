import ToonScript.Proofs.DumpRoundTrip

/-!
# Sources line by line

A source is cut into lines, and every line is cut into tokens on its own. So a source can be
read in two parts, if the cut between them is a line feed: the second part has its own tokens,
so many lines further down. The first part may end in a carriage return, which then makes one
line end together with the line feed; and it may end in a line end of its own, in which case the
line feed adds an empty line. Neither adds a token.

The ways to write a newline do not matter. A text file is read with line feeds as its only
newlines, and has the same lines as before. So a program file, read and run, does what its text
does when it is run as it is (`Command.source_by_lines`).
-/

set_option autoImplicit false

namespace ToonScript

open ToonScript.Text

/-! ## Line ends -/

namespace Text

variable {line rest : List Char} {c : Char}

theorem splitLinesFrom_newline :
    splitLinesFrom line ('\n' :: rest) = line.reverse :: splitLinesFrom [] rest := by
  rw [splitLinesFrom]
  · rfl
  · nofun

theorem splitLinesFrom_pair :
    splitLinesFrom line ('\r' :: '\n' :: rest) = line.reverse :: splitLinesFrom [] rest := by
  rw [splitLinesFrom]

theorem splitLinesFrom_cons (apart : ∀ more, c = '\r' → rest ≠ '\n' :: more) :
    splitLinesFrom line (c :: rest) =
      if isLineEnd c then line.reverse :: splitLinesFrom [] rest else
        splitLinesFrom (c :: line) rest := by
  rw [splitLinesFrom]
  exact apart

/-- A line feed behind a text adds an empty line at most, and what stands behind it has lines of
its own. -/
theorem exists_empty_lines (line front : List Char) :
    ∃ empty : List (List Char), (∀ added ∈ empty, added = []) ∧ ∀ back,
      splitLinesFrom line (front ++ '\n' :: back) = splitLinesFrom line front ++ empty ++
        splitLinesFrom [] back := by
  induction line, front using splitLinesFrom.induct with
  | case1 line isEmpty =>
      refine ⟨[[]], by simp, fun back => ?_⟩
      rw [List.nil_append, splitLinesFrom_newline, List.isEmpty_iff.mp isEmpty]
      rfl
  | case2 line started =>
      refine ⟨[], nofun, fun back => ?_⟩
      rw [List.nil_append, splitLinesFrom_newline]
      simp [splitLinesFrom, started]
  | case3 line rest ih =>
      obtain ⟨empty, areEmpty, lines⟩ := ih
      refine ⟨empty, areEmpty, fun back => ?_⟩
      simp only [List.cons_append, splitLinesFrom_pair, lines]
  | case4 line c rest unpaired ends ih =>
      by_cases fused : c = '\r' ∧ rest = []
      · obtain ⟨rfl, rfl⟩ := fused
        refine ⟨[], nofun, fun back => ?_⟩
        rw [List.singleton_append, splitLinesFrom_pair]
        rfl
      · obtain ⟨empty, areEmpty, lines⟩ := ih
        refine ⟨empty, areEmpty, fun back => ?_⟩
        have apart : ∀ more, c = '\r' → rest ++ '\n' :: back ≠ '\n' :: more := by
          intro more isReturn starts
          cases rest with
          | nil => exact fused ⟨isReturn, rfl⟩
          | cons next rest =>
              cases starts
              exact unpaired rest isReturn rfl
        rw [List.cons_append, splitLinesFrom_cons apart, splitLinesFrom_cons unpaired,
          if_pos ends, if_pos ends, lines]
        rfl
  | case5 line c rest unpaired inside ih =>
      have notReturn : c ≠ '\r' := by
        rintro rfl
        exact inside rfl
      obtain ⟨empty, areEmpty, lines⟩ := ih
      refine ⟨empty, areEmpty, fun back => ?_⟩
      rw [List.cons_append, splitLinesFrom_cons fun _ same => absurd same notReturn,
        splitLinesFrom_cons unpaired, if_neg inside, if_neg inside, lines]

/-! ## Newlines of text files -/

/-- A text in which every carriage return, with the line feed behind it if there is one, is
replaced by a line feed. -/
def lineFed : List Char → List Char
  | [] => []
  | '\r' :: '\n' :: rest => '\n' :: lineFed rest
  | '\r' :: rest => '\n' :: lineFed rest
  | c :: rest => c :: lineFed rest

theorem unifyNewlinesFrom_eq_lineFed (done text : List Char) :
    unifyNewlinesFrom done text = done.reverse ++ lineFed text := by
  induction done, text using unifyNewlinesFrom.induct with
  | case1 done => simp [unifyNewlinesFrom, lineFed]
  | case2 done rest ih =>
      rw [unifyNewlinesFrom, lineFed, ih]
      simp
  | case3 done rest unpaired ih =>
      rw [unifyNewlinesFrom, lineFed, ih]
      · simp
      · exact unpaired
      · exact unpaired
  | case4 done c rest unpaired notReturn ih =>
      rw [unifyNewlinesFrom, lineFed, ih]
      · simp
      all_goals assumption

/-- A text has the same lines when line feeds are its only newlines. -/
theorem splitLinesFrom_lineFed (line text : List Char) :
    splitLinesFrom line (lineFed text) = splitLinesFrom line text := by
  induction text using lineFed.induct generalizing line with
  | case1 => rfl
  | case2 rest ih => rw [lineFed, splitLinesFrom_newline, splitLinesFrom_pair, ih]
  | case3 rest unpaired ih =>
      have alone : lineFed ('\r' :: rest) = '\n' :: lineFed rest := by
        rw [lineFed]
        exact unpaired
      rw [alone, splitLinesFrom_newline, splitLinesFrom_cons fun more _ => unpaired more, ih]
      rfl
  | case4 c rest unpaired notReturn ih =>
      have kept : lineFed (c :: rest) = c :: lineFed rest := by
        rw [lineFed]
        all_goals assumption
      rw [kept, splitLinesFrom_cons fun _ same => absurd same notReturn,
        splitLinesFrom_cons unpaired, ih, ih]

theorem splitLines_unifyNewlines (text : String) :
    splitLines (unifyNewlines text) = splitLines text := by
  rw [splitLines, unifyNewlines, String.toList_ofList, unifyNewlinesFrom_eq_lineFed,
    List.reverse_nil, List.nil_append, splitLinesFrom_lineFed]
  rfl

/-- A line feed behind a text adds no line that holds a character, and what stands behind it has
lines of its own. -/
theorem splitLines_append_newline (front : String) :
    ∃ empty : List String, (∀ line ∈ empty, line = "") ∧ ∀ back,
      splitLines (front ++ "\n" ++ back) = splitLines front ++ empty ++ splitLines back := by
  obtain ⟨empty, areEmpty, lines⟩ := exists_empty_lines [] front.toList
  refine ⟨empty.map String.ofList, ?_, fun back => ?_⟩
  · intro line member
    obtain ⟨added, among, rfl⟩ := List.mem_map.mp member
    rw [areEmpty added among]
  · have characters : (front ++ "\n" ++ back).toList = front.toList ++ '\n' :: back.toList := by
      simp
    rw [splitLines, characters, lines, List.map_append, List.map_append]
    rfl

end Text

/-! ## Tokens of consecutive lines -/

namespace Token

/-- The token some lines further down. -/
def down (lines : Nat) (token : Token) : Token := { token with line := token.line + lines }

theorem ofLine_add (line : String) (number : Int) (lines : Nat) :
    ofLine line (number + lines) = (ofLine line number).map (down lines) := by
  rw [ofLine, ofLine, List.map_map]
  rfl

theorem ofLinesFrom_add (number : Int) (lines : Nat) (texts : List String) :
    ofLinesFrom (number + lines) texts = (ofLinesFrom number texts).map (down lines) := by
  induction texts generalizing number with
  | nil => rfl
  | cons line texts ih =>
      have next : number + lines + 1 = number + 1 + lines := by omega
      rw [ofLinesFrom, ofLinesFrom, ofLine_add, next, ih, List.map_append]

theorem ofLinesFrom_append (number : Int) (front back : List String) :
    ofLinesFrom number (front ++ back) = ofLinesFrom number front ++
      ofLinesFrom (number + front.length) back := by
  induction front generalizing number with
  | nil => simp [ofLinesFrom]
  | cons line front ih =>
      have next : number + 1 + front.length = number + (line :: front).length := by
        rw [List.length_cons]
        omega
      rw [List.cons_append, ofLinesFrom, ofLinesFrom, ih, next, List.append_assoc]

/-- Empty lines have no tokens. -/
theorem ofLinesFrom_empty (number : Int) {lines : List String}
    (empty : ∀ line ∈ lines, line = "") :
    ofLinesFrom number lines = [] := by
  induction lines generalizing number with
  | nil => rfl
  | cons line lines ih =>
      obtain ⟨rfl, emptyRest⟩ := List.forall_mem_cons.mp empty
      rw [ofLinesFrom, ih _ emptyRest]
      rfl

/-- Line numbers never decrease: no token of a line stands below one of a later line. -/
theorem pairwise_ofLinesFrom (number : Int) (lines : List String) :
    (ofLinesFrom number lines).Pairwise fun former latter => former.line ≤ latter.line := by
  induction lines generalizing number with
  | nil => exact .nil
  | cons line lines ih =>
      have onLine : ∀ token ∈ ofLine line number, token.line = number := by
        intro token member
        obtain ⟨chunk, -, rfl⟩ := List.mem_map.mp member
        rfl
      refine List.pairwise_append.mpr ⟨?_, ih _, ?_⟩
      · refine List.pairwise_of_forall_mem_list fun former here latter too => ?_
        exact Int.le_of_eq ((onLine former here).trans (onLine latter too).symm)
      · intro former here latter later
        obtain ⟨chunk, below, rfl, isBelow, -⟩ := mem_ofLinesFrom later
        rw [onLine former here]
        exact Int.le_of_lt isBelow

/-- The tokens of two texts with a line feed between them. -/
theorem ofSource_append (front back : String) :
    ofSource (front ++ "\n" ++ back) =
      ofSource front ++ (ofSource back).map (down (splitLines (front ++ "\n")).length) := by
  obtain ⟨empty, areEmpty, lines⟩ := splitLines_append_newline front
  have closed : splitLines (front ++ "\n") = splitLines front ++ empty := by
    have alone := lines ""
    rwa [String.append_empty, show splitLines "" = [] from rfl, List.append_nil] at alone
  have first : ofLinesFrom 1 (splitLines front ++ empty) = ofSource front := by
    rw [ofLinesFrom_append, ofLinesFrom_empty _ areEmpty, List.append_nil]
    rfl
  rw [ofSource, ofLines, lines, ofLinesFrom_append, first, ofLinesFrom_add, closed]
  rfl

theorem ofSource_unifyNewlines (source : String) :
    ofSource (unifyNewlines source) = ofSource source := by
  rw [ofSource, splitLines_unifyNewlines]
  rfl

end Token

namespace Command

/-- Running a program file is running the tokens of its text, whatever its newlines are. -/
theorem Act.runProgram_of_find {program content : String} {shell : Shell}
    (found : shell.files.find (.ofString program) = .text content) (steps : Nat)
    (strict : Bool) :
    Act.runProgram steps strict program shell =
      (do Act.note (.file (Path.ofString program).toString)
          Act.runTokens steps strict (Path.ofString program).name
            (Token.ofSource content) : Act Bool) shell := by
  rw [runProgram, bind_of_ok (readFile_of_find found), ← Token.ofSource_unifyNewlines content]

/-- **A source is read line by line, whatever its newlines are.** With a line feed between two
texts, the tokens are those of the first text and then those of the second one, as many lines
further down as the first text has with the line feed. The lines are counted from one, and their
numbers never decrease along the tokens. A text has the same tokens, on the same lines, when its
newlines are unified as for a text file. So a program file runs as its text does, both on its
own and in a batch. -/
theorem source_by_lines :
    (∀ front back, Token.ofSource (front ++ "\n" ++ back) =
      Token.ofSource front ++ (Token.ofSource back).map
        (Token.down (splitLines (front ++ "\n")).length)) ∧
    (∀ source, (∀ token ∈ Token.ofSource source, 1 ≤ token.line) ∧
      (Token.ofSource source).Pairwise fun former latter => former.line ≤ latter.line) ∧
    (∀ source, Token.ofSource (unifyNewlines source) = Token.ofSource source) ∧
    (∀ steps strict source console,
      Program.runFile steps strict source console =
        Program.runSource steps strict source console) ∧
    ∀ steps strict program content (shell : Shell),
      shell.files.find (.ofString program) = .text content →
      Act.runProgram steps strict program shell =
        (do Act.note (.file (Path.ofString program).toString)
            Act.runTokens steps strict (Path.ofString program).name
              (Token.ofSource content) : Act Bool) shell := by
  refine ⟨Token.ofSource_append, fun source => ⟨?_, Token.pairwise_ofLinesFrom _ _⟩,
    Token.ofSource_unifyNewlines, fun steps strict source console => ?_,
    fun steps strict program content shell found => ?_⟩
  · intro token member
    obtain ⟨chunk, line, rfl, fromOne, -⟩ := Token.mem_ofLinesFrom member
    exact fromOne
  · rw [Program.runFile, Program.runSource, Token.ofSource_unifyNewlines]
    rfl
  · exact Act.runProgram_of_find found steps strict

/-- A program file with a carriage return alone, a pair of both, and a quote that is not closed.
-/
def returningShell : Shell :=
  { files := ⟨[("x.cizgi", "^_^ x\r\"_ 1\r\n^_^")], []⟩, console := {} }

/-- The file is run as its text. In a text that is cut inside a pair, the line feed makes no
line of its own. -/
theorem source_by_lines_returning :
    (∀ steps strict, Act.runProgram steps strict "x.cizgi" returningShell =
      (do Act.note (.file "x.cizgi")
          Act.runTokens steps strict "x.cizgi"
            (Token.ofSource "^_^ x\r\"_ 1\r\n^_^") : Act Bool) returningShell) ∧
    Token.ofSource ("^_^ x\r\"_ 1\r" ++ "\n" ++ "^_^") =
      Token.ofSource "^_^ x\r\"_ 1\r" ++ (Token.ofSource "^_^").map (Token.down 2) := by
  have two : (splitLines ("^_^ x\r\"_ 1\r" ++ "\n")).length = 2 := by decide +kernel
  obtain ⟨appended, -, -, -, fromFile⟩ := source_by_lines
  refine ⟨fun steps strict => fromFile steps strict _ _ _ (by decide +kernel), ?_⟩
  rw [← two]
  exact appended _ _

end Command

end ToonScript
