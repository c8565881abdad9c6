import ToonScript.Token.Basic
import ToonScript.Value.Input

/-!
# The vocabulary

The fixed words and signs of the language with their kinds. Brackets face outward: `)` opens a
group and `(` closes it, and so for the other pairs. Every kind with a fixed spelling has
exactly one; numbers, quoted texts, identifiers and unknown chunks have none.
-/

set_option autoImplicit false

namespace ToonScript.Token

/-- The fixed spellings and their kinds. -/
def vocabulary : List (String × Kind) :=
  [
    ("döfenşimos", .ifKw), ("ornitorenk", .elseKw), ("pepe", .whileKw), ("bebe", .forKw),
    ("dede", .returnKw), ("huysuz", .switchKw), ("uzun", .caseKw), ("tontiş", .breakKw),
    ("şapşik", .continueKw), ("marsupilami", .inputKw), ("tospik", .printKw), ("?", .question),
    ("!", .exclamation), ("_", .assign), ("._.", .plus), (",_,", .minus), ("\\", .divide),
    (":", .colon), (";", .semicolon), ("*_*", .power), ("%", .mod), ("keloğlan", .varKw),
    (trueWord, .trueLit), (falseWord, .falseLit), ("mordekay", .intType),
    ("rigbi", .stringType), ("çakbeşlik", .booleanType), ("finyıs", .floatType),
    ("förb", .charType), ("__", .equal), ("!_", .notEqual), ("-:", .lessThan),
    (":-", .greaterThan), ("-:_", .lessEqual), (":-_", .greaterEqual), ("#", .and),
    ("##", .andAnd), ("$", .or), ("$$", .orOr), (")", .groupOpen), ("(", .groupClose),
    ("\x7d", .blockOpen), ("\x7b", .blockClose), ("]", .bracketOpen), ("[", .bracketClose),
    ("._._", .plusAssign), (",_,_", .minusAssign), ("^_^", .marker)]

/-- The kind of a fixed spelling. -/
def Kind.ofSpelling? (text : String) : Option Kind :=
  (vocabulary.find? fun entry => entry.1 == text).map (·.2)

/-- A text that has what no fixed spelling has is none of them. -/
theorem Kind.ofSpelling?_eq_none (feature : String → Bool) {text : String}
    (lacking : ∀ entry ∈ vocabulary, feature entry.1 = false) (having : feature text = true) :
    ofSpelling? text = none := by
  rw [ofSpelling?, Option.map_eq_none_iff, List.find?_eq_none]
  intro entry member same
  have lacks := lacking entry member
  rw [beq_iff_eq.mp same, having] at lacks
  cases lacks

/-- The fixed spelling of a kind. -/
def Kind.spelling? (kind : Kind) : Option String :=
  (vocabulary.find? fun entry => entry.2 == kind).map (·.1)

end ToonScript.Token
