/-
**Reading decimal numbers.** The text of a number is an optional minus sign and digits with at most
one point among them. It denotes the double-precision number nearest to its decimal value, however
many digits it has.
-/

import TypedScript.Number.Binary64
import TypedScript.Text.Alphabet

namespace TypedScript.Decimal

open Text

/-- The number a row of digits denotes. -/
def natOfDigits (digits : List Char) : Nat :=
  digits.foldl (fun total c => total * 10 + (c.toNat - '0'.toNat)) 0

/-- The coefficient and exponent of digits with at most one point, at least one digit in all. -/
def parts? (text : List Char) : Option (Nat × Int) :=
  let whole := text.takeWhile isAsciiDigit
  let fraction? : Option (List Char) :=
    match text.dropWhile isAsciiDigit with
    | [] => some []
    | '.' :: fraction => if fraction.all isAsciiDigit then some fraction else none
    | _ => none
  match fraction? with
  | none => none
  | some fraction =>
    if whole.isEmpty && fraction.isEmpty then none
    else some (natOfDigits (whole ++ fraction), -(fraction.length : Int))

/-- The number that a text denotes, if it has the form of one. -/
def ofPlain? (text : List Char) : Option Binary64 :=
  let (negative, digits) :=
    match text with
    | '-' :: rest => (true, rest)
    | _ => (false, text)
  (parts? digits).map fun (coefficient, exponent) =>
    Binary64.ofDecimal negative coefficient exponent

end TypedScript.Decimal
