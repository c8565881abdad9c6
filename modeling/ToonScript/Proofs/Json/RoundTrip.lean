import ToonScript.Proofs.Json.Scalar
import ToonScript.Text.Lines

/-!
# Written values are read back

A value that is written in a style and read again is the same value (`parse_render`), provided
that it is `Faithful`: no integer in it is longer than a numeral may be, every double in it is
read back from its own text, every text in it is encodable, and no object in it repeats a key.
Of the style only this is used, that its gaps hold blanks and line feeds.

A text `Spells` a value if a reader finds the value at its front and stops behind it. What the
printer does at each kind of value keeps this, so the theorem is one induction over the value. A
text that spells a value holds no carriage return, which is why a text file with it is read as
it was written (`unifyNewlines_render`).
-/

set_option autoImplicit false

namespace ToonScript.Json

open ToonScript.Text

/-! ## Gaps -/

/-- A gap between two signs, made of blanks and line feeds. -/
def Blank (gap : List Char) : Prop := ∀ c ∈ gap, c = ' ' ∨ c = '\n'

/-- A style whose gaps are blank. -/
structure Style.Airy (style : Style) : Prop where
  opening : ∀ depth, Blank (style.opening depth)
  between : ∀ depth, Blank (style.between depth)
  closing : ∀ depth, Blank (style.closing depth)

theorem blank_newline (depth : Nat) : Blank (newline depth) := by
  intro c member
  rcases List.mem_cons.mp member with rfl | blanks
  · exact .inr rfl
  · exact .inl (List.eq_of_mem_replicate blanks)

theorem Style.Airy.line : Style.line.Airy where
  opening := nofun
  between := by
    intro depth c member
    exact .inl (List.mem_singleton.mp member)
  closing := nofun

theorem Style.Airy.indented : Style.indented.Airy where
  opening := fun depth => blank_newline (depth + 1)
  between := fun depth => blank_newline (depth + 1)
  closing := blank_newline

/-- A gap is passed over. -/
theorem Blank.skipSpace_append {gap : List Char} (blank : Blank gap) (cs : List Char) :
    skipSpace (gap ++ cs) = skipSpace cs := by
  refine List.dropWhile_append_of_pos fun c member => ?_
  rcases blank c member with rfl | rfl <;> rfl

/-- A gap before a delimiter delimits. -/
theorem Blank.delimited {gap : List Char} (blank : Blank gap) {c : Char}
    (delimiter : isDelimiter c) (rest : List Char) : Delimited (gap ++ c :: rest) := by
  cases gap with
  | nil =>
      rintro _ ⟨⟩
      exact delimiter
  | cons first gap =>
      rintro _ ⟨⟩
      rcases blank first List.mem_cons_self with rfl | rfl <;> rfl

theorem delimited_comma (rest : List Char) : Delimited (',' :: rest) := by
  rintro _ ⟨⟩
  rfl

theorem Blank.noReturn {gap : List Char} (blank : Blank gap) : '\r' ∉ gap := by
  intro member
  rcases blank _ member with same | same <;> cases same

/-! ## Texts that spell values -/

/-- A text that starts with a sign, and not with the one that would close an array or an object.
-/
def Opens (cs : List Char) : Prop :=
  ∃ c tail, cs = c :: tail ∧ isSpace c = false ∧ c ≠ ']' ∧ c ≠ '}'

theorem Opens.append {cs : List Char} (opens : Opens cs) (rest : List Char) :
    Opens (cs ++ rest) := by
  obtain ⟨c, tail, rfl, first⟩ := opens
  exact ⟨c, tail ++ rest, rfl, first⟩

theorem Opens.skipSpace_eq {cs : List Char} (opens : Opens cs) : skipSpace cs = cs := by
  obtain ⟨c, tail, rfl, solid, -⟩ := opens
  exact List.dropWhile_cons_of_neg (by simp [solid])

/-- Behind a gap stands the first sign. -/
theorem Opens.skipSpace_gap {cs gap : List Char} (opens : Opens cs) (blank : Blank gap) :
    skipSpace (gap ++ cs) = cs := by
  rw [blank.skipSpace_append, opens.skipSpace_eq]

/-- A text from which a value is read, up to its end and no further, with a budget that the text
provides. -/
structure Spells (cs : List Char) (value : Json) : Prop where
  opens : Opens cs
  noReturn : '\r' ∉ cs
  read : ∀ steps rest, 2 * cs.length < steps → Delimited rest →
    readValue steps (cs ++ rest) = .ok (value, rest)

/-- A text from which the items of an array are read, up to the closing bracket. -/
structure SpellsItems (cs : List Char) (items : List Json) : Prop where
  opens : Opens cs
  noReturn : '\r' ∉ cs
  read : ∀ steps rest, 2 * cs.length + 1 < steps →
    readItems steps (cs ++ ']' :: rest) = .ok (items, rest)

/-- A text from which the members of an object are read, up to the closing bracket and behind
members with other keys. -/
structure SpellsMembers (cs : List Char) (members : List (Text × Json)) : Prop where
  opens : Opens cs
  noReturn : '\r' ∉ cs
  read : ∀ steps done rest, 2 * cs.length + 1 < steps → ((done ++ members).map Prod.fst).Nodup →
    readMembers steps done (cs ++ '}' :: rest) = .ok (done ++ members, rest)

/-! ### Scalars and texts -/

/-- A scalar that is read starts with none of the signs that open another value or close one. -/
theorem readScalar_head {cs after : List Char} {value : Json}
    (read : readScalar cs = .ok (value, after)) :
    ∃ c tail, cs = c :: tail ∧ c ∉ ['"', '[', '\x7b', ']', '\x7d'] := by
  obtain ⟨c, word, plain, rfl, -⟩ | ⟨digits, rfl, -⟩ | number := readScalar_eq_ok read
  · exact ⟨c, _, rfl, plain⟩
  · exact ⟨'-', digits, rfl, by decide⟩
  · obtain ⟨c, tail, rfl, digit⟩ := readNumber_head number
    refine ⟨c, tail, rfl, fun sign => ?_⟩
    simp only [List.mem_cons, List.not_mem_nil, or_false] at sign
    rcases sign with rfl | rfl | rfl | rfl | rfl <;> cases digit

theorem Spells.scalar {cs : List Char} {value : Json} (read : readScalar cs = .ok (value, []))
    (solid : ∀ c ∈ cs, isSpace c = false) : Spells cs value where
  opens := by
    obtain ⟨c, tail, rfl, noSign⟩ := readScalar_head read
    simp only [List.mem_cons, List.not_mem_nil, or_false, not_or] at noSign
    exact ⟨c, tail, rfl, solid c List.mem_cons_self, noSign.2.2.2⟩
  noReturn := fun member => nomatch solid _ member
  read := by
    intro steps rest enough delimited
    obtain ⟨c, tail, rfl, noSign⟩ := readScalar_head read
    simp only [List.mem_cons, List.not_mem_nil, or_false, not_or] at noSign
    have scalar := readScalar_append delimited read
    rw [List.cons_append] at scalar ⊢
    cases steps with
    | zero => omega
    | succ steps =>
        rw [readValue, scalar]
        · rfl
        · rintro _ ⟨⟩
          exact noSign.1 rfl
        · rintro _ ⟨⟩
          exact noSign.2.1 rfl
        · rintro _ ⟨⟩
          exact noSign.2.2.1 rfl

theorem escapeChar_noReturn (c : Char) : '\r' ∉ escapeChar c := by
  have codes : ∀ n < 0x20, '\r' ∉ hexDigits 4 n := by decide
  rcases escapeChar_cases c with ⟨letter, written, read⟩ | ⟨written, control⟩
    | ⟨written, -, -, noControl⟩
  · rw [written]
    intro member
    simp only [List.mem_cons, List.not_mem_nil, or_false] at member
    rcases member with same | rfl
    · cases same
    · cases read
  · rw [written]
    intro member
    simp only [List.mem_cons] at member
    rcases member with same | same | inCode
    · cases same
    · cases same
    · exact codes c.toNat control inCode
  · rw [written, List.mem_singleton]
    rintro rfl
    exact noControl (by decide)

theorem writeText_noReturn {text : Text} (encodable : text.encodable) :
    '\r' ∉ writeText text := by
  intro member
  simp only [writeText, List.mem_cons, List.mem_append, List.mem_flatMap, List.not_mem_nil,
    or_false] at member
  rcases member with quote | ⟨point, inside, escaped⟩ | quote
  · cases quote
  · cases point with
    | char c => exact escapeChar_noReturn c escaped
    | lone index => cases List.all_eq_true.mp encodable _ inside
  · cases quote

theorem readText_writeText {text : Text} (encodable : text.encodable) (rest : List Char) :
    ∃ tail, writeText text ++ rest = '"' :: tail ∧ readText [] tail = .ok (text, rest) := by
  refine ⟨text.points.flatMap escapePoint ++ '"' :: rest, by simp [writeText], ?_⟩
  rw [readText_escape encodable]
  rfl

theorem Spells.text {text : Text} (encodable : text.encodable) :
    Spells (writeText text) (.str text) where
  opens := ⟨'"', _, rfl, by decide⟩
  noReturn := writeText_noReturn encodable
  read := by
    intro steps rest enough delimited
    obtain ⟨tail, written, read⟩ := readText_writeText encodable rest
    cases steps with
    | zero => omega
    | succ steps =>
        rw [written, readValue, read]
        rfl

/-! ### Arrays -/

theorem readItems_close {steps : Nat} {cs rest after : List Char} {item : Json}
    (first : readValue steps cs = .ok (item, rest)) (close : skipSpace rest = ']' :: after) :
    readItems (steps + 1) cs = .ok ([item], after) := by
  rw [readItems, first]
  simp only [bind, Except.bind, close]

theorem readItems_comma {steps : Nat} {cs rest more after : List Char} {item : Json}
    {items : List Json} (first : readValue steps cs = .ok (item, rest))
    (comma : skipSpace rest = ',' :: more)
    (others : readItems steps (skipSpace more) = .ok (items, after)) :
    readItems (steps + 1) cs = .ok (item :: items, after) := by
  rw [readItems, first]
  simp only [bind, Except.bind, comma, others]

theorem readValue_arr {steps : Nat} {cs after : List Char} {items : List Json}
    (opens : Opens (skipSpace cs))
    (inside : readItems steps (skipSpace cs) = .ok (items, after)) :
    readValue (steps + 1) ('[' :: cs) = .ok (.arr items, after) := by
  obtain ⟨c, tail, first, -, noClose, -⟩ := opens
  rw [readValue]
  split
  · next close =>
      rw [first] at close
      cases close
      exact absurd rfl noClose
  · rw [inside]
    rfl

theorem Spells.arr_nil : Spells ['[', ']'] (.arr []) where
  opens := ⟨'[', _, rfl, by decide⟩
  noReturn := by decide
  read := by
    intro steps rest enough delimited
    cases steps with
    | zero => omega
    | succ steps => rfl

theorem Spells.last {cs gap : List Char} {item : Json} (spells : Spells cs item)
    (blank : Blank gap) : SpellsItems (cs ++ gap) [item] where
  opens := spells.opens.append gap
  noReturn := by simp [spells.noReturn, blank.noReturn]
  read := by
    intro steps rest enough
    rw [List.length_append] at enough
    cases steps with
    | zero => omega
    | succ steps =>
        rw [List.append_assoc]
        exact readItems_close (spells.read steps _ (by omega) (blank.delimited rfl rest))
          (blank.skipSpace_append _)

theorem Spells.cons {cs gap more : List Char} {item : Json} {items : List Json}
    (spells : Spells cs item) (blank : Blank gap) (others : SpellsItems more items) :
    SpellsItems (cs ++ ',' :: (gap ++ more)) (item :: items) where
  opens := spells.opens.append _
  noReturn := by simp [spells.noReturn, blank.noReturn, others.noReturn]
  read := by
    intro steps rest enough
    simp only [List.length_append, List.length_cons] at enough
    cases steps with
    | zero => omega
    | succ steps =>
        have comma := delimited_comma (gap ++ more ++ ']' :: rest)
        have next : skipSpace (gap ++ more ++ ']' :: rest) = more ++ ']' :: rest := by
          rw [List.append_assoc]
          exact (others.opens.append _).skipSpace_gap blank
        rw [List.append_assoc, List.cons_append]
        refine readItems_comma (spells.read steps _ (by omega) comma) rfl ?_
        rw [next]
        exact others.read steps rest (by omega)

theorem SpellsItems.arr {cs gap : List Char} {items : List Json} (spells : SpellsItems cs items)
    (blank : Blank gap) : Spells ('[' :: (gap ++ cs ++ [']'])) (.arr items) where
  opens := ⟨'[', _, rfl, by decide⟩
  noReturn := by simp [spells.noReturn, blank.noReturn]
  read := by
    intro steps rest enough delimited
    simp only [List.length_append, List.length_cons] at enough
    cases steps with
    | zero => omega
    | succ steps =>
        have opens := spells.opens.append (']' :: rest)
        have inside : skipSpace (gap ++ cs ++ [']'] ++ rest) = cs ++ ']' :: rest := by
          rw [List.append_assoc, List.append_assoc]
          exact opens.skipSpace_gap blank
        rw [List.cons_append]
        refine readValue_arr ?_ ?_ <;> rw [inside]
        · exact opens
        · exact spells.read steps rest (by omega)

/-! ### Objects -/

/-- A member with a new key comes last. -/
theorem setMember_eq_append {key : Text} {members : List (Text × Json)}
    (fresh : key ∉ members.map Prod.fst) (value : Json) :
    setMember key value members = members ++ [(key, value)] := by
  induction members with
  | nil => rfl
  | cons member members ih =>
      simp only [List.map_cons, List.mem_cons, not_or] at fresh
      rw [setMember, if_neg (Ne.symm fresh.1), ih fresh.2]
      rfl

/-- The key of a member differs from those before it. -/
theorem fresh_of_nodup {done members : List (Text × Json)} {key : Text} {value : Json}
    (distinct : ((done ++ (key, value) :: members).map Prod.fst).Nodup) :
    key ∉ done.map Prod.fst := by
  rw [List.map_append, List.nodup_append] at distinct
  exact fun old => distinct.2.2 key old key List.mem_cons_self rfl

theorem readMembers_close {steps : Nat} {done : List (Text × Json)}
    {cs rest more after : List Char} {key : Text} {value : Json}
    (name : readKey cs = .ok (key, rest)) (first : readValue steps rest = .ok (value, more))
    (close : skipSpace more = '}' :: after) (fresh : key ∉ done.map Prod.fst) :
    readMembers (steps + 1) done cs = .ok (done ++ [(key, value)], after) := by
  rw [readMembers, name]
  simp only [bind, Except.bind, first, close, setMember_eq_append fresh]

theorem readMembers_comma {steps : Nat} {done : List (Text × Json)}
    {cs rest more after : List Char} {key : Text} {value : Json}
    (name : readKey cs = .ok (key, rest)) (first : readValue steps rest = .ok (value, more))
    (comma : skipSpace more = ',' :: after) (fresh : key ∉ done.map Prod.fst) :
    readMembers (steps + 1) done cs =
      readMembers steps (done ++ [(key, value)]) (skipSpace after) := by
  rw [readMembers, name]
  simp only [bind, Except.bind, first, comma, setMember_eq_append fresh]

theorem readValue_obj {steps : Nat} {cs after : List Char} {members : List (Text × Json)}
    (opens : Opens (skipSpace cs))
    (inside : readMembers steps [] (skipSpace cs) = .ok (members, after)) :
    readValue (steps + 1) ('\x7b' :: cs) = .ok (.obj members, after) := by
  obtain ⟨c, tail, first, -, -, noClose⟩ := opens
  rw [readValue]
  split
  · next close =>
      rw [first] at close
      cases close
      exact absurd rfl noClose
  · rw [inside]
    rfl

/-- A member as it is written, where `cs` is written from its value on. -/
def writeMember (key : Text) (cs : List Char) : List Char := writeText key ++ ':' :: ' ' :: cs

theorem readKey_writeMember {key : Text} (encodable : key.encodable) {cs : List Char}
    (opens : Opens cs) : readKey (writeMember key cs) = .ok (key, cs) := by
  obtain ⟨tail, written, read⟩ := readText_writeText encodable (':' :: ' ' :: cs)
  rw [writeMember, written, readKey, read]
  change Except.ok (key, skipSpace (' ' :: cs)) = _
  rw [show skipSpace (' ' :: cs) = skipSpace cs from rfl, opens.skipSpace_eq]

theorem opens_writeMember (key : Text) (cs : List Char) : Opens (writeMember key cs) :=
  ⟨'"', _, rfl, by decide⟩

theorem writeMember_noReturn {key : Text} (encodable : key.encodable) {cs : List Char}
    (clean : '\r' ∉ cs) : '\r' ∉ writeMember key cs := by
  simp [writeMember, writeText_noReturn encodable, clean]

theorem writeMember_append (key : Text) (cs rest : List Char) :
    writeMember key cs ++ rest = writeMember key (cs ++ rest) := by
  simp [writeMember]

theorem length_le_writeMember (key : Text) (cs : List Char) :
    cs.length ≤ (writeMember key cs).length := by
  simp only [writeMember, List.length_append, List.length_cons]
  omega

theorem Spells.obj_nil : Spells ['\x7b', '}'] (.obj []) where
  opens := ⟨'\x7b', _, rfl, by decide⟩
  noReturn := by decide
  read := by
    intro steps rest enough delimited
    cases steps with
    | zero => omega
    | succ steps => rfl

theorem Spells.lastMember {cs gap : List Char} {value : Json} (spells : Spells cs value)
    (blank : Blank gap) {key : Text} (encodable : key.encodable) :
    SpellsMembers (writeMember key (cs ++ gap)) [(key, value)] where
  opens := opens_writeMember key _
  noReturn := writeMember_noReturn encodable (by simp [spells.noReturn, blank.noReturn])
  read := by
    intro steps done rest enough distinct
    have length := length_le_writeMember key (cs ++ gap)
    rw [List.length_append] at length
    cases steps with
    | zero => omega
    | succ steps =>
        rw [writeMember_append, List.append_assoc]
        exact readMembers_close (readKey_writeMember encodable (spells.opens.append _))
          (spells.read steps _ (by omega) (blank.delimited rfl rest)) (blank.skipSpace_append _)
          (fresh_of_nodup distinct)

theorem Spells.consMember {cs gap more : List Char} {value : Json}
    {members : List (Text × Json)} (spells : Spells cs value) (blank : Blank gap) {key : Text}
    (encodable : key.encodable) (others : SpellsMembers more members) :
    SpellsMembers (writeMember key (cs ++ ',' :: (gap ++ more))) ((key, value) :: members) where
  opens := opens_writeMember key _
  noReturn :=
    writeMember_noReturn encodable (by simp [spells.noReturn, blank.noReturn, others.noReturn])
  read := by
    intro steps done rest enough distinct
    have length := length_le_writeMember key (cs ++ ',' :: (gap ++ more))
    simp only [List.length_append, List.length_cons] at length
    cases steps with
    | zero => omega
    | succ steps =>
        have comma := delimited_comma (gap ++ more ++ '}' :: rest)
        have next : skipSpace (gap ++ more ++ '}' :: rest) = more ++ '}' :: rest := by
          rw [List.append_assoc]
          exact (others.opens.append _).skipSpace_gap blank
        have fresh := fresh_of_nodup distinct
        rw [writeMember_append, List.append_assoc, List.cons_append]
        rw [readMembers_comma (readKey_writeMember encodable (spells.opens.append _))
          (spells.read steps _ (by omega) comma) rfl fresh, next]
        have same : done ++ (key, value) :: members = done ++ [(key, value)] ++ members :=
          List.append_cons ..
        rw [same] at distinct ⊢
        exact others.read steps _ rest (by omega) distinct

theorem SpellsMembers.obj {cs gap : List Char} {members : List (Text × Json)}
    (spells : SpellsMembers cs members) (blank : Blank gap)
    (distinct : (members.map Prod.fst).Nodup) :
    Spells ('\x7b' :: (gap ++ cs ++ ['}'])) (.obj members) where
  opens := ⟨'\x7b', _, rfl, by decide⟩
  noReturn := by simp [spells.noReturn, blank.noReturn]
  read := by
    intro steps rest enough delimited
    simp only [List.length_append, List.length_cons] at enough
    cases steps with
    | zero => omega
    | succ steps =>
        have opens := spells.opens.append ('}' :: rest)
        have inside : skipSpace (gap ++ cs ++ ['}'] ++ rest) = cs ++ '}' :: rest := by
          rw [List.append_assoc, List.append_assoc]
          exact opens.skipSpace_gap blank
        rw [List.cons_append]
        refine readValue_obj ?_ ?_ <;> rw [inside]
        · exact opens
        · exact spells.read steps [] rest (by omega) distinct

/-! ## The round trip -/

mutual

/-- A value that can be read back: its integers are not too long, each of its doubles is read
back from its own text, its texts are encodable, and the keys of an object differ. -/
def Faithful : Json → Prop
  | null => True
  | bool _ => True
  | int n => n.natAbs < 10 ^ Decimal.maxDigits
  | float x => parse (Decimal.Layout.data.render x) = .ok (.float x)
  | str text => text.encodable
  | arr items => FaithfulItems items
  | obj members => (members.map Prod.fst).Nodup ∧ FaithfulMembers members

/-- Items that can be read back. -/
def FaithfulItems : List Json → Prop
  | [] => True
  | item :: rest => item.Faithful ∧ FaithfulItems rest

/-- Members whose keys and values can be read back. -/
def FaithfulMembers : List (Text × Json) → Prop
  | [] => True
  | (key, value) :: rest => key.encodable ∧ value.Faithful ∧ FaithfulMembers rest

end

theorem isSpace_toString (n : Int) : ∀ c ∈ (toString n).toList, isSpace c = false := by
  have digits : ∀ {m : Nat}, ∀ c ∈ (Nat.repr m).toList, isSpace c = false := by
    intro m c member
    rw [Nat.toList_repr] at member
    exact isSpace_of_isAsciiDigit (Nat.isDigit_of_mem_toDigits (by decide) (by decide) member)
  cases n with
  | ofNat m => exact digits
  | negSucc m =>
      change ∀ c ∈ ("-" ++ Nat.repr (m + 1)).toList, _
      intro c member
      rw [String.toList_append] at member
      rcases List.mem_append.mp member with sign | inDigits
      · rw [List.mem_singleton.mp sign]
        rfl
      · exact digits c inDigits

mutual

/-- What is written of a value spells it. -/
theorem spells_write {style : Style} (airy : style.Airy) :
    ∀ (value : Json) (depth : Nat), value.Faithful → Spells (write style depth value) value
  | null, _, _ => .scalar rfl (by simp [write, isSpace])
  | bool true, _, _ => .scalar rfl (by simp [write, isSpace])
  | bool false, _, _ => .scalar rfl (by simp [write, isSpace])
  | int n, _, short => .scalar (readScalar_int short) (isSpace_toString n)
  | float x, _, readsBack => .scalar (readScalar_float readsBack) (isSpace_render x)
  | str _, _, encodable => .text encodable
  | arr [], _, _ => .arr_nil
  | arr (item :: rest), depth, ⟨first, others⟩ => by
      have inside :=
        spellsItems_write airy rest depth others (spells_write airy item (depth + 1) first)
      have spells := inside.arr (airy.opening depth)
      rw [write]
      simpa using spells
  | obj [], _, _ => .obj_nil
  | obj ((key, value) :: rest), depth, ⟨distinct, encodable, first, others⟩ => by
      have inside :=
        spellsMembers_write airy rest depth others encodable
          (spells_write airy value (depth + 1) first)
      have spells := inside.obj (airy.opening depth) distinct
      rw [write]
      simpa [writeMember] using spells

theorem spellsItems_write {style : Style} (airy : style.Airy) :
    ∀ (items : List Json) (depth : Nat), FaithfulItems items → ∀ {cs : List Char} {item : Json},
      Spells cs item →
      SpellsItems (cs ++ (writeItems style depth items ++ style.closing depth)) (item :: items)
  | [], depth, _, cs, item, spells => by
      rw [writeItems]
      exact spells.last (airy.closing depth)
  | next :: rest, depth, ⟨first, others⟩, cs, item, spells => by
      have more :=
        spellsItems_write airy rest depth others (spells_write airy next (depth + 1) first)
      have all := spells.cons (airy.between depth) more
      rw [writeItems]
      simpa using all

theorem spellsMembers_write {style : Style} (airy : style.Airy) :
    ∀ (members : List (Text × Json)) (depth : Nat), FaithfulMembers members →
      ∀ {key : Text}, key.encodable → ∀ {cs : List Char} {value : Json}, Spells cs value →
        SpellsMembers
          (writeMember key (cs ++ (writeMembers style depth members ++ style.closing depth)))
          ((key, value) :: members)
  | [], depth, _, key, encodable, cs, value, spells => by
      rw [writeMembers]
      exact spells.lastMember (airy.closing depth) encodable
  | (name, next) :: rest, depth, ⟨encodableName, first, others⟩, key, encodable, cs,
    value, spells => by
      have more :=
        spellsMembers_write airy rest depth others encodableName
          (spells_write airy next (depth + 1) first)
      have all := spells.consMember (airy.between depth) encodable more
      rw [writeMembers]
      simpa [writeMember] using all

end

/-- A faithful value is read back from its text. -/
theorem parse_render {style : Style} (airy : style.Airy) {value : Json}
    (faithful : value.Faithful) :
    parse (render style value) = .ok value := by
  have spells := spells_write airy value 0 faithful
  refine parse_eq_ok_iff.mpr ⟨[], ?_, rfl⟩
  rw [render, String.toList_ofList, spells.opens.skipSpace_eq]
  have read := spells.read (2 * (write style 0 value).length + 2) [] (by omega) nofun
  rw [List.append_nil] at read
  exact read

/-! ## Text files -/

/-- A text file without carriage returns is read as it is. -/
theorem unifyNewlinesFrom_eq {cs : List Char} (clean : '\r' ∉ cs) (done : List Char) :
    unifyNewlinesFrom done cs = done.reverse ++ cs := by
  induction cs generalizing done with
  | nil => simp [unifyNewlinesFrom]
  | cons c cs ih =>
      simp only [List.mem_cons, not_or] at clean
      rw [unifyNewlinesFrom, ih clean.2]
      · simp
      · exact fun _ same => absurd same.symm clean.1
      · exact fun same => absurd same.symm clean.1

/-- The text of a faithful value comes out of a text file as it was written into it. -/
theorem unifyNewlines_render {style : Style} (airy : style.Airy) {value : Json}
    (faithful : value.Faithful) :
    unifyNewlines (render style value) = render style value := by
  have clean := (spells_write airy value 0 faithful).noReturn
  rw [unifyNewlines, render, String.toList_ofList, unifyNewlinesFrom_eq clean]
  rfl

end ToonScript.Json
