/-
**Writing numbers.** A number is written with the digits of its shortest decimal. A `Style` says how
they are laid out: whether a whole number shows a fraction, and when an exponent is used.
-/

import TypedScript.Number.Shortest

namespace TypedScript.Number

/-- The decisions of a number format. -/
structure Style where
  /-- The choice between two equally near shortest decimals. -/
  tie : Tie
  fraction : Bool
  /-- Whether a number whose leading digit stands at the given power of ten is written without an
  exponent. -/
  isPlain : Int → Bool

/-- The digits of a coefficient, moved by a power of ten, without an exponent. -/
def plain (fraction : Bool) (digits : List Char) (exponent : Int) : List Char :=
  if 0 ≤ exponent then
    digits ++ List.replicate exponent.toNat '0' ++ (if fraction then ['.', '0'] else [])
  else
    let places := (-exponent).toNat
    if places < digits.length then
      digits.take (digits.length - places) ++ '.' :: digits.drop (digits.length - places)
    else ['0', '.'] ++ List.replicate (places - digits.length) '0' ++ digits

/-- The digits with a point behind the first one, and the power of ten of that digit. -/
def scientific (digits : List Char) (leading : Int) : List Char :=
  let point := if digits.length ≤ 1 then digits else digits.take 1 ++ '.' :: digits.drop 1
  let sign := if leading < 0 then '-' else '+'
  point ++ 'e' :: sign :: Nat.toDigits 10 leading.natAbs

/-- The text of a number without its sign. -/
def Style.magnitude (style : Style) (mantissa : Nat) (exponent : Int) : List Char :=
  if mantissa = 0 then plain style.fraction ['0'] 0
  else
    let (coefficient, ten) := Shortest.decimal style.tie mantissa exponent
    let digits := Nat.toDigits 10 coefficient
    let leading : Int := ten + digits.length - 1
    if style.isPlain leading then plain style.fraction digits ten else scientific digits leading

/-- A magnitude with its sign. -/
def signed (negative : Bool) (magnitude : List Char) : List Char :=
  if negative then '-' :: magnitude else magnitude

/-- The text of a number in a style. -/
def Style.write (style : Style) : Binary64 → List Char
  | .finite negative mantissa exponent => signed negative (style.magnitude mantissa exponent)
  | .infinite negative => signed negative ['i', 'n', 'f']
  | .undefined => ['N', 'a', 'N']

/-- Numbers in scripts and generated code: as many zeros as it takes, and never an exponent. -/
def literalStyle : Style where
  tie := .up
  fraction := false
  isPlain _ := true

end TypedScript.Number
