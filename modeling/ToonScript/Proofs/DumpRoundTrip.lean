import ToonScript.Command.Batch
import ToonScript.Proofs.Json.RoundTrip
import ToonScript.Proofs.Sequencing

/-!
# A token dump loses nothing

The tokens of a source text can be written into a file and run from there. The dump of a list of
tokens is read as the same list (`Token.load_dump`), and its text is read as the same dump,
since it is a faithful value of the data format (`Token.faithful_dump`). So the file that the
command writes beside a program stands for the program (`Command.dump_round_trip`).
-/

set_option autoImplicit false

namespace ToonScript

/-! ## Loading a dump -/

theorem Ty.ofName?_name (ty : Ty) : ofName? ty.name = some ty := by
  cases ty <;> decide

theorem Token.Kind.ofName?_name (kind : Kind) : ofName? kind.name = some kind := by
  cases kind <;> decide

theorem Value.ofJson_toJson (value : Value) : ofJson value.toJson = .ok value := by
  have type : value.toJson.member? "type" = some (.str value.ty.name) := by
    simp [toJson, Json.member?]
  have data : value.toJson.member? "data" = some value.toData := by simp [toJson, Json.member?]
  have named : tyOfJson (.str value.ty.name) = .ok value.ty := by rw [tyOfJson, Ty.ofName?_name]
  have loaded : ofJson value.toJson = ofData value.ty value.toData := by
    simp only [toJson] at type data
    simp only [toJson, ofJson, type, data, named, bind, Except.bind, Option.getD_some]
  rw [loaded]
  cases value with
  | int n =>
      have same : Value.ofInt n.toInt = .int n := by rw [ofInt_eq, Int64.ofInt_toInt]
      exact congrArg Except.ok same
  | char c =>
      have single : ofSingleton? (.singleton c) = some (.char c) := rfl
      simp only [ty, toData, ofData, Json.asText, single]
  | float | boolean | string | void | unknown => rfl

theorem Token.literalOfJson_toJson (literal : Option Value) :
    literalOfJson ((literal.map Value.toJson).getD .null) = .ok literal := by
  cases literal with
  | none => rfl
  | some value =>
      change (Value.ofJson value.toJson >>= fun value => pure (some value)) = _
      rw [Value.ofJson_toJson]
      rfl

theorem Token.kindOfJson_name (kind : Kind) : kindOfJson (.str kind.name) = .ok kind := by
  rw [kindOfJson, Kind.ofName?_name]

theorem Token.ofJson_toJson (token : Token) : ofJson token.toJson = .ok token := by
  have kind : entry "kind" token.toJson = .ok (.str token.kind.name) := rfl
  have lexeme : entry "lexeme" token.toJson = .ok (.str token.lexeme) := rfl
  have literal : token.toJson.member? "literal" =
      some ((token.literal.map Value.toJson).getD .null) := rfl
  have line : token.toJson.member? "line" = some (.int token.line) := rfl
  have parts : ofParts? token.kind token.lexeme token.literal token.line = some token :=
    dif_pos token.literal_isSome
  simp only [toJson] at kind lexeme literal line
  simp only [toJson, ofJson, kind, lexeme, literal, line, bind, Except.bind, kindOfJson_name,
    Option.getD_some, literalOfJson_toJson, Json.toInteger, Json.asText, parts]

/-- The dump of tokens is loaded as the same tokens. -/
theorem Token.load_dump (tokens : List Token) : load (dump tokens) = .ok tokens := by
  change (tokens.map toJson).mapM ofJson = .ok tokens
  induction tokens with
  | nil => rfl
  | cons token tokens ih =>
      rw [List.map_cons, List.mapM_cons, ofJson_toJson, ih]
      rfl

/-! ## The text of a dump -/

/-- Every integer of 64 bits is short enough. -/
theorem Value.natAbs_toInt_lt (n : Int64) : n.toInt.natAbs < 10 ^ Decimal.maxDigits := by
  have lower := n.le_toInt
  have upper := n.toInt_lt
  have small : n.toInt.natAbs < 10 ^ 19 := by omega
  exact Nat.lt_of_lt_of_le small (Nat.pow_le_pow_right (by decide) (by decide))

theorem Value.faithful_toJson {value : Value} (encodable : value.text.encodable)
    (floats : ∀ x, value = .float x → Json.parse (Decimal.Layout.data.render x) =
      .ok (.float x)) :
    value.toJson.Faithful := by
  have data : value.toData.Faithful := by
    cases value with
    | int n => exact natAbs_toInt_lt n
    | float x => exact floats x rfl
    | string | char => exact encodable
    | boolean | void | unknown => trivial
  exact ⟨by simp, by simp, Text.encodable_ofString _, by simp, data, trivial⟩

/-- A token is kept faithfully if its texts are encodable, its line number is not too long and a
double that it carries is read back. -/
theorem Token.faithful_toJson {token : Token} (encodable : token.encodable)
    (floats : ∀ x, token.literal = some (.float x) → Json.parse (Decimal.Layout.data.render x) =
      .ok (.float x))
    (line : token.line.natAbs < 10 ^ Decimal.maxDigits) : token.toJson.Faithful := by
  rw [Token.encodable, Bool.and_eq_true] at encodable
  have literal : Json.Faithful ((token.literal.map Value.toJson).getD .null) := by
    cases carried : token.literal with
    | none => trivial
    | some value =>
        refine Value.faithful_toJson ?_ fun x same => floats x (same ▸ carried)
        simpa [carried] using encodable.2
  exact ⟨by simp, by simp, Text.encodable_ofString _, by simp, encodable.1, by simp,
    literal, by simp, line, trivial⟩

theorem Token.faithful_dump {tokens : List Token}
    (encodable : ∀ token ∈ tokens, token.encodable)
    (floats : ∀ token ∈ tokens, ∀ x, token.literal = some (.float x) →
      Json.parse (Decimal.Layout.data.render x) = .ok (.float x))
    (lines : ∀ token ∈ tokens, token.line.natAbs < 10 ^ Decimal.maxDigits) :
    (dump tokens).Faithful := by
  have items : Json.FaithfulItems (tokens.map toJson) := by
    induction tokens with
    | nil => trivial
    | cons token tokens ih =>
        rw [List.forall_mem_cons] at encodable floats lines
        exact ⟨faithful_toJson encodable.1 floats.1 lines.1, ih encodable.2 floats.2 lines.2⟩
  exact ⟨by simp, by simp, Text.encodable_ofString _, by simp, items, trivial⟩

/-- The line numbers of a source text are no longer than the number of its lines. -/
theorem Token.natAbs_line_lt {source : String} {token : Token} {bound : Nat}
    (lines : (Text.splitLines source).length < bound) (member : token ∈ ofSource source) :
    token.line.natAbs < bound := by
  obtain ⟨chunk, line, rfl, lower, upper⟩ := mem_ofLinesFrom member
  change line.natAbs < bound
  omega

namespace Command

/-! ## Files -/

/-- What was written at a path is found there. -/
theorem Files.find_write (files : Files) (content : String) (path : Path) :
    (files.write path.toString content).find path = .text content := by
  have found :
      (putText path.toString content files.texts).find? (fun file => file.1 == path.toString) =
      some (path.toString, content) := by
    induction files.texts with
    | nil => simp [putText]
    | cons file rest ih =>
        rw [putText]
        split
        · simp
        · next other => rw [List.find?_cons_of_neg (by simpa using other), ih]
  rw [find, write, found]

namespace Act

theorem readFile_of_find {path : Path} {shell : Shell} {content : String}
    (found : shell.files.find path = .text content) :
    readFile path shell = .ok (some (Text.unifyNewlines content)) shell := by
  rw [readFile, get_bind, found]
  rfl

/-- The text of a dump is parsed to the tokens that were dumped. -/
theorem parseDump_render {style : Json.Style} (airy : style.Airy) {tokens : List Token}
    (faithful : (Token.dump tokens).Faithful) (shell : Shell) :
    parseDump (Text.unifyNewlines (Json.render style (Token.dump tokens))) shell =
      .ok tokens shell := by
  rw [Json.unifyNewlines_render airy faithful, parseDump, Json.parse_render airy faithful]
  simp only [Token.load_dump]
  rfl

/-- The tokens of a program file are kept beside it. -/
theorem emitTokens_of_find {program : String} {shell : Shell} {content : String}
    (found : shell.files.find (.ofString program) = .text content) :
    emitTokens program shell = .ok 0
      { shell with
        files := shell.files.write ((Path.ofString program).withSuffix ".tokens.json").toString
          (Json.render .indented (Token.dump (Token.ofSource (Text.unifyNewlines content))))
        console := shell.console.write
          ((Path.ofString program).withSuffix ".tokens.json").toString } := by
  rw [emitTokens, bind_of_ok (readFile_of_find found)]
  rfl

/-- A dump at a path is run as the tokens that were dumped. -/
theorem runDump_of_find {style : Json.Style} (airy : style.Airy) {tokens : List Token}
    (faithful : (Token.dump tokens).Faithful) {file : String} {shell : Shell}
    (found : shell.files.find (.ofString file) = .text (Json.render style (Token.dump tokens)))
    (steps : Nat) (strict : Bool) :
    runDump steps strict file shell =
      (do return if ← runTokens steps strict (Path.ofString file).name tokens
          then 0 else 1 : Act Nat) shell := by
  rw [runDump, bind_of_ok (readFile_of_find found)]
  exact bind_of_ok (parseDump_render airy faithful shell)

end Act

/-- **A token dump loses nothing.** The text of the dump of a program, on one line or indented,
is read as a value of the data format that is loaded as exactly the tokens of the program. And
if the command keeps the tokens of a program file, then running the file that it wrote does what
running the tokens of the program does.

It is assumed that each double in the program is read back from its own text, and that the
number of lines is not too long for a numeral. -/
theorem dump_round_trip {source : String}
    (floats : ∀ token ∈ Token.ofSource source, ∀ x, token.literal = some (.float x) →
      Json.parse (Decimal.Layout.data.render x) = .ok (.float x))
    (lines : (Text.splitLines source).length < 10 ^ Decimal.maxDigits) :
    (∀ style ∈ [Json.Style.line, Json.Style.indented], ∃ data,
      Json.parse (Json.render style (Token.dump (Token.ofSource source))) = .ok data ∧
        Token.load data = .ok (Token.ofSource source)) ∧
    ∀ (program file content : String) (shell : Shell),
      shell.files.find (.ofString program) = .text content →
      Text.unifyNewlines content = source →
      (Path.ofString file).toString =
        ((Path.ofString program).withSuffix ".tokens.json").toString →
        ∃ kept, Act.emitTokens program shell = .ok 0 kept ∧
          kept.console.feed = shell.console.feed ∧
          ∀ steps strict, Act.runDump steps strict file kept =
            (do return if ← Act.runTokens steps strict (Path.ofString file).name (Token.ofSource source)
                then 0 else 1 : Act Nat) kept := by
  have faithful :=
    Token.faithful_dump (fun _ => Token.encodable_of_mem_ofSource) floats fun token member =>
      Token.natAbs_line_lt lines member
  constructor
  · intro style known
    have airy : style.Airy := by
      simp only [List.mem_cons, List.not_mem_nil, or_false] at known
      rcases known with rfl | rfl
      · exact .line
      · exact .indented
    exact ⟨_, Json.parse_render airy faithful, Token.load_dump _⟩
  · rintro program file content shell found rfl target
    refine ⟨_, Act.emitTokens_of_find found, rfl, Act.runDump_of_find .indented faithful ?_⟩
    rw [← target]
    exact Files.find_write _ _ _

instance decidableEqFloat (outcome : Except Json.ParseError Json) (x : Float) :
    Decidable (outcome = .ok (.float x)) :=
  match outcome with
  | .ok (.float y) => decidable_of_iff (y = x) (by simp)
  | .error _ | .ok .null | .ok (.bool _) | .ok (.int _) | .ok (.str _) | .ok (.arr _)
  | .ok (.obj _) => isFalse nofun

/-- A program with a double, a text full of signs to escape, the greatest integer and an unknown
token. -/
def keptSource : String := "keloğlan 1.5\n\"\\ \x01é\x7b\" 9223372036854775807 \""

/-- The files before the tokens of the program are kept. -/
def keepingShell : Shell := { files := ⟨[("x.cizgi", keptSource)], []⟩, console := {} }

theorem dump_round_trip_kept :
    (∃ data, Json.parse (Json.render .line (Token.dump (Token.ofSource keptSource))) =
      .ok data ∧ Token.load data = .ok (Token.ofSource keptSource)) ∧
    ∃ kept, Act.emitTokens "x.cizgi" keepingShell = .ok 0 kept ∧
      kept.console.feed = keepingShell.console.feed ∧
      ∀ steps strict, Act.runDump steps strict "./x.cizgi.tokens.json" kept =
        (do return if ← Act.runTokens steps strict "x.cizgi.tokens.json" (Token.ofSource keptSource)
            then 0 else 1 : Act Nat) kept := by
  have literals : (Token.ofSource keptSource).filterMap Token.literal =
      [.float 1.5, .string "\\ \x01é\x7b", .int 9223372036854775807] := by
    decide +kernel
  have floats : ∀ token ∈ Token.ofSource keptSource, ∀ x, token.literal = some (.float x) →
      Json.parse (Decimal.Layout.data.render x) = .ok (.float x) := by
    intro token member x carried
    have listed := List.mem_filterMap.mpr ⟨token, member, carried⟩
    rw [literals] at listed
    simp only [List.mem_cons, Value.float.injEq, List.not_mem_nil, reduceCtorEq,
      or_false] at listed
    rw [listed]
    decide +kernel
  have name : (Path.ofString "./x.cizgi.tokens.json").name = "x.cizgi.tokens.json" := by
    decide +kernel
  obtain ⟨styles, files⟩ := dump_round_trip floats (by decide +kernel)
  have reloaded :=
    files "x.cizgi" "./x.cizgi.tokens.json" keptSource keepingShell (by decide +kernel)
      (by decide +kernel) (by decide +kernel)
  rw [name] at reloaded
  exact ⟨styles .line List.mem_cons_self, reloaded⟩

end Command

end ToonScript
