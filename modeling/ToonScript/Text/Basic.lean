/-!
# Texts

A text is a row of code points. Nearly all of them are characters. But a data file can write the
two halves of a surrogate pair apart from each other, and a half that stands alone is a code
point too: a text may hold it, and texts with it are compared and joined like all others. Such a
text has no encoding, so it cannot be written to a file.

Sources and the contents of files are strings, and every string is a text.
-/

set_option autoImplicit false

namespace ToonScript

/-- A code point: a character, or a surrogate that stands alone, counted from `U+D800`. -/
inductive Point where
  | char (c : Char)
  | lone (index : Fin 2048)
deriving DecidableEq

namespace Point

/-- The number of a code point. -/
def code : Point → Nat
  | char c => c.toNat
  | lone index => 0xD800 + index

/-- Code points are told apart by their numbers. -/
theorem code_inj {p q : Point} : p.code = q.code ↔ p = q := by
  refine ⟨fun same => ?_, congrArg code⟩
  -- no character has the number of a surrogate
  have outside : ∀ c : Char, c.toNat < 0xD800 ∨ 0xDFFF < c.toNat :=
    fun c => c.valid.imp id And.left
  cases p with
  | char c =>
      cases q with
      | char d => exact congrArg char (Char.toNat_inj.mp same)
      | lone index =>
          have := outside c
          simp only [code] at same
          omega
  | lone index =>
      cases q with
      | char d =>
          have := outside d
          simp only [code] at same
          omega
      | lone other =>
          simp only [code] at same
          exact congrArg lone (Fin.ext (by omega))

/-- Whether a code point is a character. -/
def isChar : Point → Bool
  | char _ => true
  | lone _ => false

/-- The character of a code point; the replacement character stands for a surrogate. -/
def toChar : Point → Char
  | char c => c
  | lone _ => Char.ofNat 0xFFFD

end Point

/-- A row of code points. -/
@[ext]
structure Text where
  points : List Point
deriving DecidableEq

namespace Text

/-- A string as a text. -/
def ofString (s : String) : Text := ⟨s.toList.map .char⟩

instance : Coe String Text := ⟨ofString⟩

@[simp, grind =] theorem ofString_inj {a b : String} : ofString a = ofString b ↔ a = b := by
  simp only [ofString, Text.mk.injEq]
  rw [List.map_inj_right fun c d same => Point.char.inj same, String.toList_inj]

/-- Two texts, one behind the other. -/
protected def append (a b : Text) : Text := ⟨a.points ++ b.points⟩

instance : Append Text := ⟨Text.append⟩

@[simp] theorem points_append (a b : Text) : (a ++ b).points = a.points ++ b.points := rfl

/-- Whether a text has no code points. -/
protected def isEmpty (text : Text) : Bool := text.points.isEmpty

theorem isEmpty_iff {text : Text} : text.isEmpty ↔ text = "" := by
  rw [Text.isEmpty, List.isEmpty_iff]
  exact ⟨Text.ext, congrArg points⟩

/-- The text of one code point. -/
protected def singleton (point : Point) : Text := ⟨[point]⟩

/-- Texts, one behind the other. -/
protected def join (texts : List Text) : Text := ⟨texts.flatMap points⟩

/-- Whether a text has an encoding: no surrogate stands alone in it. -/
def encodable (text : Text) : Bool := text.points.all Point.isChar

@[simp] theorem encodable_ofString (s : String) : (ofString s).encodable := by
  simp [encodable, ofString, Point.isChar]

@[simp] theorem encodable_append (a b : Text) :
    (a ++ b).encodable = (a.encodable && b.encodable) := by
  rw [encodable, points_append, List.all_append, encodable, encodable]

/-- The characters of a text; the replacement character stands for a surrogate. -/
def chars (text : Text) : List Char := text.points.map Point.toChar

@[simp] theorem chars_ofString (s : String) : (ofString s).chars = s.toList := by
  simp [chars, ofString, Function.comp_def, Point.toChar]

end Text

end ToonScript
