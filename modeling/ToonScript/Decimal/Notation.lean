import ToonScript.Decimal.Shortest

/-!
# The text of a double

A double is written with the fewest digits that read back as the same double. Exponents from
`-4` to `15` are written positionally and always with a decimal point; the others in scientific
notation, with a signed exponent of at least two digits. The choices are collected in one
`Layout`, so that the two formats in which doubles are written share the digits and differ only
in the record.
-/

set_option autoImplicit false

namespace ToonScript.Decimal

/-- How a double is laid out as text. Decimal exponents from `positionalFrom` on and below
`scientificFrom` are written positionally, all others with an exponent of at least
`exponentWidth` digits. -/
structure Layout where
  positionalFrom : Int
  scientificFrom : Int
  exponentWidth : Nat
  nan : String
  infinity : String

/-- The layout that programs see. -/
def Layout.plain : Layout := ⟨-4, 16, 2, "nan", "inf"⟩

/-- The layout of numbers in a data file, where the special values are written as words. -/
def Layout.data : Layout := ⟨-4, 16, 2, "NaN", "Infinity"⟩

/-- A row of digits with the point after its first `point` places, filled with zeros on either
side. -/
def positional (digits : List Char) (point : Int) : List Char :=
  if point ≤ 0 then '0' :: '.' :: (List.replicate (-point).toNat '0' ++ digits)
  else
    let whole := point.toNat
    let padded := digits ++ List.replicate (whole - digits.length) '0'
    let fraction := padded.drop whole
    padded.take whole ++ '.' :: (if fraction.isEmpty then ['0'] else fraction)

/-- A row of digits in scientific notation, with the given decimal exponent. -/
def scientific (width : Nat) (digits : List Char) (exponent : Int) : List Char :=
  let places := Nat.toDigits 10 exponent.natAbs
  let mantissa := match digits with
    | first :: second :: rest => first :: '.' :: second :: rest
    | _ => digits
  mantissa ++ 'e' :: (if exponent < 0 then '-' else '+') ::
    (List.replicate (width - places.length) '0' ++ places)

/-- The characters of a positive finite double. -/
def Layout.magnitude (layout : Layout) (s : Scaled) : List Char :=
  let decimal := shortest s
  let digits := Nat.toDigits 10 decimal.digits
  let exponent := decimal.point - 1
  if layout.positionalFrom ≤ exponent ∧ exponent < layout.scientificFrom then
    positional digits decimal.point
  else scientific layout.exponentWidth digits exponent

/-- The text of a double. -/
def Layout.render (layout : Layout) (x : Float) : String :=
  if x.isNaN then layout.nan
  else
    let s := Scaled.ofFloat x
    let sign := if s.negative then "-" else ""
    if x.isInf then sign ++ layout.infinity
    else if s.mantissa = 0 then sign ++ "0.0"
    else sign ++ String.ofList (layout.magnitude s)

end ToonScript.Decimal
