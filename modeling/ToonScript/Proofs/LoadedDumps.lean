import Mathlib.Algebra.Ring.Int.Defs
import Mathlib.Data.List.Forall2
import Mathlib.Data.Set.List
import ToonScript.Proofs.DumpRoundTrip

/-!
# What is loaded from a dump

Loading is generous: an integer may be given as a text, a truth value or a double, a text as any
value, entries may be missing, repeated or out of place. `Token.Holds` says what a value of the
data format has to look like to be loaded, and as which tokens. Whatever is let through is then
well-formed, and dumping it again gives a value in normal form (`NormalDump`), in which every
payload has the shape of its type: the normal forms are exactly the values that are loaded and
dumped as themselves. A normal form is loaded as the tokens that it came from, so nothing gets
lost that was loaded once (`Token.loaded_dump_normal`).
-/

set_option autoImplicit false

namespace ToonScript

/-! ## Reading step by step -/

theorem LoadError.bind_eq_ok_iff {α β : Type} {first : Except LoadError α}
    {next : α → Except LoadError β} {b : β} :
    first >>= next = .ok b ↔ ∃ a, first = .ok a ∧ next a = .ok b := by
  cases first with
  | error fault =>
      constructor
      · nofun
      · rintro ⟨a, failed, -⟩
        cases failed
  | ok a =>
      constructor
      · intro done
        exact ⟨a, rfl, done⟩
      · rintro ⟨a, same, done⟩
        cases same
        exact done

/-- A list is read if and only if each of its items is. -/
theorem LoadError.mapM_eq_ok_iff {α β : Type} {read : α → Except LoadError β} {items : List α}
    {values : List β} :
    items.mapM read = .ok values ↔
      List.Forall₂ (fun item value => read item = .ok value) items values := by
  induction items generalizing values with
  | nil =>
      rw [List.forall₂_nil_left_iff, List.mapM_nil]
      exact ⟨fun same => (Except.ok.inj same).symm, fun same => same ▸ rfl⟩
  | cons item items ih =>
      simp only [List.mapM_cons, bind_eq_ok_iff, List.forall₂_cons_left_iff, ih]
      constructor
      · rintro ⟨value, first, rest, others, same⟩
        exact ⟨value, rest, first, others, (Except.ok.inj same).symm⟩
      · rintro ⟨value, rest, first, others, rfl⟩
        exact ⟨value, first, rest, others, rfl⟩

open LoadError

theorem Ty.name_of_ofName? {text : Text} {ty : Ty} (found : ofName? text = some ty) :
    text = ty.name := by
  have named := List.find?_some found
  exact beq_iff_eq.mp named

theorem Token.Kind.name_of_ofName? {text : Text} {kind : Kind}
    (found : ofName? text = some kind) :
    text = kind.name := by
  have named := List.find?_some found
  exact beq_iff_eq.mp named

namespace Value

/-- The value of a type that a payload stands for. An integer of any size is wrapped around to
64 bits, and a character is a text of length one. -/
inductive StandsFor : Ty → Json → Value → Prop where
  | int {data : Json} {n : Int} (read : data.toInteger = .ok n) : StandsFor .int data (.ofInt n)
  | float {data : Json} {x : Float} (read : data.toDouble = .ok x) :
      StandsFor .float data (.float x)
  | boolean (data : Json) : StandsFor .boolean data (.boolean data.toTruth)
  | string (data : Json) : StandsFor .string data (.string data.asText)
  | char {data : Json} {c : Point} (single : data.asText.points = [c]) :
      StandsFor .char data (.char c)
  | void (data : Json) : StandsFor .void data .void
  | unknown (data : Json) : StandsFor .unknown data .unknown

variable {ty : Ty} {data : Json} {value : Value}

theorem ofSingleton?_eq_some_iff {text : Text} :
    ofSingleton? text = some value ↔ ∃ c, text.points = [c] ∧ value = .char c := by
  unfold ofSingleton?
  split
  · next c single => simp [single, eq_comm]
  · next none =>
      constructor
      · nofun
      · rintro ⟨c, single, -⟩
        exact absurd single (none c)

theorem ofData_eq_ok_iff : ofData ty data = .ok value ↔ StandsFor ty data value := by
  constructor
  · intro read
    cases ty with
    | int =>
        obtain ⟨n, converted, same⟩ := bind_eq_ok_iff.mp read
        cases same
        exact .int converted
    | float =>
        obtain ⟨x, converted, same⟩ := bind_eq_ok_iff.mp read
        cases same
        exact .float converted
    | boolean =>
        cases read
        exact .boolean data
    | string =>
        cases read
        exact .string data
    | char =>
        rw [ofData] at read
        split at read
        · next found =>
            cases read
            obtain ⟨c, single, rfl⟩ := ofSingleton?_eq_some_iff.mp found
            exact .char single
        · cases read
    | void =>
        cases read
        exact .void data
    | unknown =>
        cases read
        exact .unknown data
  · intro stands
    cases stands with
    | int read => exact bind_eq_ok_iff.mpr ⟨_, read, rfl⟩
    | float read => exact bind_eq_ok_iff.mpr ⟨_, read, rfl⟩
    | char single => rw [ofData, ofSingleton?_eq_some_iff.mpr ⟨_, single, rfl⟩]
    | boolean | string | void | unknown => rfl

theorem tyOfJson_eq_ok_iff : tyOfJson data = .ok ty ↔ data = .str ty.name := by
  constructor
  · intro read
    unfold tyOfJson at read
    split at read
    · split at read
      · next found =>
          cases read
          rw [Ty.name_of_ofName? found]
      · cases read
    · cases read
  · rintro rfl
    rw [tyOfJson, Ty.ofName?_name]

theorem ofJson_eq_ok_iff : ofJson data = .ok value ↔
    ∃ ty, data.member? "type" = some (.str ty.name) ∧
      StandsFor ty ((data.member? "data").getD .null) value := by
  constructor
  · intro read
    unfold ofJson at read
    split at read
    · split at read
      · cases read
      · next name named =>
          obtain ⟨ty, known, payload⟩ := bind_eq_ok_iff.mp read
          obtain rfl := tyOfJson_eq_ok_iff.mp known
          exact ⟨ty, named, ofData_eq_ok_iff.mp payload⟩
    · cases read
  · rintro ⟨ty, named, payload⟩
    cases data with
    | obj members =>
        rw [ofJson]
        simp only [named]
        exact bind_eq_ok_iff.mpr ⟨ty, tyOfJson_eq_ok_iff.mpr rfl, ofData_eq_ok_iff.mpr payload⟩
    | null | bool | int | float | str | arr => cases named

end Value

namespace Token

/-- The literal that an entry stands for: none for nothing, and the value of an object with a
type and a payload, where a payload that is missing counts as nothing. -/
inductive LiteralOf : Json → Option Value → Prop where
  | absent : LiteralOf .null none
  | present {data : Json} {ty : Ty} {value : Value}
      (named : data.member? "type" = some (.str ty.name))
      (payload : Value.StandsFor ty ((data.member? "data").getD .null) value) :
      LiteralOf data (some value)

/-- An object describes a token by its entries; the literal and the line may be missing. -/
structure Describes (item : Json) (token : Token) : Prop where
  kind : item.member? "kind" = some (.str token.kind.name)
  lexeme : item.member? "lexeme" = some (.str token.lexeme)
  literal : LiteralOf ((item.member? "literal").getD .null) token.literal
  line : ((item.member? "line").getD (.int 0)).toInteger = .ok token.line

/-- A value of the data format holds tokens: it is marked as a dump and lists objects that
describe them. An empty text or object lists nothing. -/
inductive Holds (data : Json) : List Token → Prop where
  | items {items : List Json} {tokens : List Token}
      (marked : data.member? "type" = some (.str "Tokens"))
      (listed : data.member? "tokens" = some (.arr items))
      (each : List.Forall₂ Describes items tokens) :
      Holds data tokens
  | emptyText (marked : data.member? "type" = some (.str "Tokens"))
      (listed : data.member? "tokens" = some (.str "")) : Holds data []
  | emptyObject (marked : data.member? "type" = some (.str "Tokens"))
      (listed : data.member? "tokens" = some (.obj [])) : Holds data []

/-- The lexemes of the items of a dump are texts, where they are given. -/
def TextLexemes (data : Json) : Prop :=
  ∀ items, data.member? "tokens" = some (.arr items) → ∀ item ∈ items, ∀ lexeme,
    item.member? "lexeme" = some lexeme → ∃ text, lexeme = .str text

variable {data item : Json} {token : Token} {tokens : List Token}

theorem entry_eq_ok_iff {key : String} {value : Json} :
    entry key data = .ok value ↔ data.member? key = some value := by
  unfold entry
  split
  · next found => simp [found]
  · next missing => simp [missing]

theorem kindOfJson_eq_ok_iff {kind : Kind} :
    kindOfJson data = .ok kind ↔ data = .str kind.name := by
  constructor
  · intro read
    unfold kindOfJson at read
    split at read
    · split at read
      · next found =>
          cases read
          rw [Kind.name_of_ofName? found]
      · cases read
    · cases read
  · rintro rfl
    exact kindOfJson_name kind

theorem literalOfJson_eq_ok_iff {literal : Option Value} :
    literalOfJson data = .ok literal ↔ LiteralOf data literal := by
  constructor
  · intro read
    unfold literalOfJson at read
    split at read
    · cases read
      exact .absent
    · obtain ⟨value, loaded, same⟩ := bind_eq_ok_iff.mp read
      cases same
      obtain ⟨ty, named, payload⟩ := Value.ofJson_eq_ok_iff.mp loaded
      exact .present named payload
  · intro stands
    cases stands with
    | absent => rfl
    | present named payload =>
        have read := Value.ofJson_eq_ok_iff.mpr ⟨_, named, payload⟩
        unfold literalOfJson
        split
        · cases named
        · exact bind_eq_ok_iff.mpr ⟨_, read, rfl⟩

theorem ofParts?_eq_some_iff {kind : Kind} {lexeme : Text} {literal : Option Value}
    {line : Int} :
    ofParts? kind lexeme literal line = some token ↔
      token.kind = kind ∧ token.lexeme = lexeme ∧ token.literal = literal ∧
        token.line = line := by
  constructor
  · intro made
    unfold ofParts? at made
    split at made
    · cases made
      exact ⟨rfl, rfl, rfl, rfl⟩
    · cases made
  · rintro ⟨rfl, rfl, rfl, rfl⟩
    exact dif_pos token.literal_isSome

/-- An object with a text for a lexeme is loaded as a token if and only if it describes it. -/
theorem ofJson_eq_ok_iff
    (textual : ∀ lexeme, item.member? "lexeme" = some lexeme → ∃ text, lexeme = .str text) :
    ofJson item = .ok token ↔ Describes item token := by
  constructor
  · intro read
    unfold ofJson at read
    split at read
    · simp only [bind_eq_ok_iff, entry_eq_ok_iff, kindOfJson_eq_ok_iff] at read
      obtain ⟨_, given, kind, rfl, lexeme, spelled, literal, carried, line, counted,
        finished⟩ := read
      obtain ⟨text, rfl⟩ := textual lexeme spelled
      split at finished
      · next made =>
          cases finished
          obtain ⟨rfl, same, rfl, rfl⟩ := ofParts?_eq_some_iff.mp made
          rw [Json.asText] at same
          exact ⟨given, same ▸ spelled, literalOfJson_eq_ok_iff.mp carried, counted⟩
      · cases finished
    · cases read
  · intro describes
    have parts : ofParts? token.kind token.lexeme token.literal token.line = some token :=
      ofParts?_eq_some_iff.mpr ⟨rfl, rfl, rfl, rfl⟩
    cases item with
    | obj members =>
        rw [ofJson]
        simp only [bind_eq_ok_iff]
        refine ⟨_, entry_eq_ok_iff.mpr describes.kind, _, kindOfJson_eq_ok_iff.mpr rfl, _,
          entry_eq_ok_iff.mpr describes.lexeme, _,
          literalOfJson_eq_ok_iff.mpr describes.literal, _, describes.line, ?_⟩
        simp only [Json.asText, parts]
    | null | bool | int | float | str | arr => cases describes.kind

/-- A dump is loaded as the tokens that it holds, and as nothing else. -/
theorem load_eq_ok_iff (textual : TextLexemes data) :
    load data = .ok tokens ↔ Holds data tokens := by
  have each : ∀ {items}, data.member? "tokens" = some (.arr items) →
      (ofItems (.arr items) = .ok tokens ↔ List.Forall₂ Describes items tokens) := by
    intro items listed
    have texts := textual items listed
    rw [ofItems, mapM_eq_ok_iff]
    constructor
    · intro read
      have both := (List.forall₂_and_left _ _).mpr ⟨texts, read⟩
      exact both.imp fun _ _ ⟨textual, read⟩ => (ofJson_eq_ok_iff textual).mp read
    · intro described
      have both := (List.forall₂_and_left _ _).mpr ⟨texts, described⟩
      exact both.imp fun _ _ ⟨textual, describes⟩ => (ofJson_eq_ok_iff textual).mpr describes
  constructor
  · intro read
    unfold load at read
    split at read
    · next marked =>
        split at read
        · next isDump =>
            subst isDump
            obtain ⟨entry, listed, items⟩ := bind_eq_ok_iff.mp read
            rw [entry_eq_ok_iff] at listed
            cases entry with
            | arr items => exact .items marked listed ((each listed).mp items)
            | str text =>
                rw [ofItems] at items
                split at items
                · next empty =>
                    cases items
                    rw [Text.isEmpty_iff.mp empty] at listed
                    exact .emptyText marked listed
                · cases items
            | obj members =>
                rw [ofItems] at items
                split at items
                · next empty =>
                    cases items
                    rw [List.isEmpty_iff.mp empty] at listed
                    exact .emptyObject marked listed
                · cases items
            | null | bool | int | float => cases items
        · cases read
    · cases read
  · intro holds
    have loaded : ∀ {entry}, data.member? "type" = some (.str "Tokens") →
        data.member? "tokens" = some entry →
        ofItems entry = .ok tokens → load data = .ok tokens := by
      intro entry marked listed items
      rw [load, marked]
      exact bind_eq_ok_iff.mpr ⟨entry, entry_eq_ok_iff.mpr listed, items⟩
    cases holds with
    | items marked listed described => exact loaded marked listed ((each listed).mpr described)
    | emptyText marked listed => exact loaded marked listed rfl
    | emptyObject marked listed => exact loaded marked listed rfl

/-! ## Well-formed tokens and normal forms -/

/-- A token is well-formed: exactly the literal kinds carry a value, integers fit into 64 bits,
and a character is one code point. -/
structure WellFormed (token : Token) : Prop where
  carries : token.literal.isSome ↔ token.kind ∈ [Kind.number, .stringLit, .trueLit, .falseLit]
  integer : ∀ n, token.literal = some (.int n) → -2 ^ 63 ≤ n.toInt ∧ n.toInt ≤ 2 ^ 63 - 1
  character : ∀ c, token.literal = some (.char c) → (Value.char c).text.points.length = 1

theorem isLiteral_iff {kind : Kind} :
    kind.isLiteral = true ↔ kind ∈ [Kind.number, .stringLit, .trueLit, .falseLit] := by
  cases kind <;> decide

theorem wellFormed (token : Token) : token.WellFormed where
  carries := by rw [token.literal_isSome, isLiteral_iff]
  integer n _ := ⟨n.le_toInt, Int.le_sub_one_of_lt n.toInt_lt⟩
  character _ _ := rfl

end Token

/-- A payload has the shape of its type. -/
inductive NormalPayload : Ty → Json → Prop where
  | int {n : Int} (lower : -2 ^ 63 ≤ n) (upper : n ≤ 2 ^ 63 - 1) : NormalPayload .int (.int n)
  | float (x : Float) : NormalPayload .float (.float x)
  | boolean (b : Bool) : NormalPayload .boolean (.bool b)
  | string (text : Text) : NormalPayload .string (.str text)
  | char {text : Text} (single : text.points.length = 1) : NormalPayload .char (.str text)
  | void : NormalPayload .void .null
  | unknown : NormalPayload .unknown .null

/-- The entry for the literal of a token of a kind: nothing, or exactly a type and a payload of
the type. -/
inductive NormalLiteral : Token.Kind → Json → Prop where
  | absent {kind : Token.Kind}
      (bare : kind ∉ [Token.Kind.number, .stringLit, .trueLit, .falseLit]) :
      NormalLiteral kind .null
  | present {kind : Token.Kind} {ty : Ty} {data : Json}
      (carrying : kind ∈ [Token.Kind.number, .stringLit, .trueLit, .falseLit])
      (payload : NormalPayload ty data) :
      NormalLiteral kind (.obj [("type", .str ty.name), ("data", data)])

/-- The item of a token: exactly its four entries, in their order. -/
inductive NormalItem : Json → Prop where
  | mk {kind : Token.Kind} {literal : Json} (lexeme : Text)
      (normal : NormalLiteral kind literal) (line : Int) :
      NormalItem (.obj [("kind", .str kind.name), ("lexeme", .str lexeme), ("literal", literal),
        ("line", .int line)])

/-- A dump in normal form: exactly the mark and the list of items. -/
inductive NormalDump : Json → Prop where
  | mk {items : List Json} (each : ∀ item ∈ items, NormalItem item) :
      NormalDump (.obj [("type", .str "Tokens"), ("tokens", .arr items)])

theorem normalPayload_iff {ty : Ty} {data : Json} :
    NormalPayload ty data ↔ ∃ value : Value, value.ty = ty ∧ value.toData = data := by
  constructor
  · intro normal
    cases normal with
    | @int n lower upper =>
        have same : (Int64.ofInt n).toInt = n :=
          Int64.toInt_ofInt_of_le lower (Int.lt_of_le_sub_one upper)
        exact ⟨.int (Int64.ofInt n), rfl, by rw [Value.toData, same]⟩
    | float x => exact ⟨.float x, rfl, rfl⟩
    | boolean b => exact ⟨.boolean b, rfl, rfl⟩
    | string text => exact ⟨.string text, rfl, rfl⟩
    | @char text single =>
        obtain ⟨c, single⟩ := List.length_eq_one_iff.mp single
        exact ⟨.char c, rfl, congrArg Json.str (Text.ext single.symm)⟩
    | void => exact ⟨.void, rfl, rfl⟩
    | unknown => exact ⟨.unknown, rfl, rfl⟩
  · rintro ⟨value, rfl, rfl⟩
    cases value with
    | int n => exact .int n.le_toInt (Int.le_sub_one_of_lt n.toInt_lt)
    | float x => exact .float x
    | boolean b => exact .boolean b
    | string text => exact .string text
    | char c => exact .char rfl
    | void => exact .void
    | unknown => exact .unknown

/-- The items in normal form are those that tokens are dumped as. -/
theorem normalItem_iff {item : Json} :
    NormalItem item ↔ ∃ token : Token, token.toJson = item := by
  constructor
  · rintro ⟨lexeme, normal, line⟩
    rename_i kind literal
    cases normal with
    | absent bare =>
        have none : (none : Option Value).isSome = kind.isLiteral := by
          rw [Option.isSome_none, eq_comm, Bool.eq_false_iff]
          exact fun literal => bare (Token.isLiteral_iff.mp literal)
        exact ⟨⟨kind, lexeme, .none, line, none⟩, rfl⟩
    | present carrying payload =>
        obtain ⟨value, rfl, rfl⟩ := normalPayload_iff.mp payload
        have some : (some value).isSome = kind.isLiteral :=
          (Token.isLiteral_iff.mpr carrying).symm
        exact ⟨⟨kind, lexeme, .some value, line, some⟩, rfl⟩
  · rintro ⟨token, rfl⟩
    refine .mk token.lexeme ?_ token.line
    have carries := token.wellFormed.carries
    cases carried : token.literal with
    | none =>
        rw [carried] at carries
        exact .absent fun member => Bool.false_ne_true (carries.mpr member)
    | some value =>
        rw [carried] at carries
        exact .present (carries.mp rfl) (normalPayload_iff.mpr ⟨value, rfl, rfl⟩)

/-- The dumps in normal form are those that are written. -/
theorem normalDump_iff {data : Json} :
    NormalDump data ↔ ∃ tokens, Token.dump tokens = data := by
  constructor
  · rintro ⟨each⟩
    rename_i items
    have dumped : items ∈ Set.range (List.map Token.toJson) := by
      rw [Set.range_list_map]
      exact fun item member => normalItem_iff.mp (each item member)
    obtain ⟨tokens, rfl⟩ := dumped
    exact ⟨tokens, rfl⟩
  · rintro ⟨tokens, rfl⟩
    refine .mk fun item member => ?_
    obtain ⟨token, -, rfl⟩ := List.mem_map.mp member
    exact normalItem_iff.mpr ⟨token, rfl⟩

namespace Token

/-- **Loaded dumps are valid and in normal form.** A value of the data format whose lexemes are
texts is loaded as the tokens that it holds; if it holds none, loading fails. Loaded tokens are
well-formed, their dump is in normal form, and it is loaded as the same tokens. The normal forms
are the values that are loaded and dumped as themselves. -/
theorem loaded_dump_normal (data : Json) (textual : TextLexemes data) :
    (∀ tokens, load data = .ok tokens ↔ Holds data tokens) ∧
    ((∀ tokens, ¬ Holds data tokens) → ∃ error, load data = .error error) ∧
    (∀ tokens, load data = .ok tokens →
      (∀ token ∈ tokens, token.WellFormed) ∧ NormalDump (dump tokens) ∧
        load (dump tokens) = .ok tokens) ∧
    (NormalDump data ↔ ∃ tokens, load data = .ok tokens ∧ dump tokens = data) := by
  refine ⟨fun tokens => load_eq_ok_iff textual, ?_, ?_, ?_⟩
  · intro none
    cases loaded : load data with
    | error error => exact ⟨error, rfl⟩
    | ok tokens => exact absurd ((load_eq_ok_iff textual).mp loaded) (none tokens)
  · intro tokens _
    exact ⟨fun token _ => token.wellFormed, normalDump_iff.mpr ⟨tokens, rfl⟩, load_dump tokens⟩
  · rw [normalDump_iff]
    constructor
    · rintro ⟨tokens, rfl⟩
      exact ⟨tokens, load_dump tokens, rfl⟩
    · rintro ⟨tokens, -, same⟩
      exact ⟨tokens, same⟩

/-- Items with an integer given as a text that is too large by one, a truth word whose value is
a character given as a number, and a line given as a double. -/
def looseItems : List Json :=
  [.obj [("line", .bool true), ("kind", .str "NUMBER"), ("lexeme", .str "x"),
      ("literal", .obj [("data", .str " 9_223372036854775808 "), ("type", .str "INT")])],
    .obj [("kind", .str "TRUE"), ("lexeme", .str "y"),
      ("literal", .obj [("type", .str "CHAR"), ("data", .int 7)])],
    .obj [("kind", .str "IDENTIFIER"), ("lexeme", .str "z"), ("line", .float 2.5)]]

/-- What the loose items are loaded as. -/
def looseTokens : List (Kind × Text × Option Value × Int) :=
  [(.number, "x", some (.int (-9223372036854775808)), 1),
    (.trueLit, "y", some (.char (.char '7')), 0), (.identifier, "z", none, 2)]

theorem loaded_dump_normal_loose :
    (∃ tokens, load (.obj [("tokens", .arr looseItems), ("type", .str "Tokens")]) = .ok tokens ∧
      tokens.map (fun token => (token.kind, token.lexeme, token.literal, token.line)) =
        looseTokens ∧
      (∀ token ∈ tokens, token.WellFormed) ∧ NormalDump (dump tokens) ∧
      load (dump tokens) = .ok tokens) ∧
    ∃ error, load (.obj [("type", .str "Tokens")]) = .error error := by
  have textual : TextLexemes (.obj [("tokens", .arr looseItems), ("type", .str "Tokens")]) := by
    intro items listed item member lexeme given
    cases listed
    simp only [looseItems, List.mem_cons, List.not_mem_nil, or_false] at member
    rcases member with rfl | rfl | rfl
    all_goals
      cases given
      exact ⟨_, rfl⟩
  have shown : (load (.obj [("tokens", .arr looseItems), ("type", .str "Tokens")])).toOption.map
      (List.map fun token => (token.kind, token.lexeme, token.literal, token.line)) =
        some looseTokens := by
    decide +kernel
  obtain ⟨-, -, normal, -⟩ := loaded_dump_normal _ textual
  constructor
  · cases loaded : load (.obj [("tokens", .arr looseItems), ("type", .str "Tokens")]) with
    | error error =>
        rw [loaded] at shown
        cases shown
    | ok tokens =>
        rw [loaded] at shown
        exact ⟨tokens, rfl, Option.some.inj shown, normal tokens loaded⟩
  · refine (loaded_dump_normal (.obj [("type", .str "Tokens")]) nofun).2.1 ?_
    intro tokens holds
    cases holds with
    | items _ listed | emptyText _ listed | emptyObject _ listed => cases listed

end Token

end ToonScript
