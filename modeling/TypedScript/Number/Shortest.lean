/-
**Shortest decimals.** The decimal with the fewest digits that reads back as a given number, and the
one nearest to the number among those.

A decimal reads back as `mantissa · 2 ^ exponent` when it lies in the interval of reals that round to
it. For 1, 2, … 17 digits the two neighbours of the number on that decimal grid are tested; the first
grid with a hit wins.
-/

import TypedScript.Number.Binary64

namespace TypedScript

/-- What becomes of a number halfway between two candidates. -/
inductive Tie where
  /-- The larger candidate. -/
  | up
  /-- The candidate whose last digit is even. -/
  | toEven
  deriving DecidableEq, Repr

namespace Shortest

/-- Four times the mantissa and the ends of its interval, in units of a quarter of its last place.
Below a power of two the neighbour is half as far. -/
structure Interval where
  lower : Nat
  middle : Nat
  upper : Nat
  /-- Whether the ends themselves round to the number. -/
  closed : Bool
  deriving Repr

/-- The interval of a number, in quarters of its last place. -/
def Interval.of (mantissa : Nat) (exponent : Int) : Interval where
  lower :=
    if mantissa = Binary64.normalMantissa ∧ Binary64.minExponent < exponent then 4 * mantissa - 1
    else 4 * mantissa - 2
  middle := 4 * mantissa
  upper := 4 * mantissa + 2
  closed := mantissa % 2 == 0

/-- A power of two over a power of ten, as a quotient. -/
def unit (two ten : Int) : Nat × Nat :=
  (Nat.pow 2 two.toNat * Nat.pow 10 (-ten).toNat, Nat.pow 2 (-two).toNat * Nat.pow 10 ten.toNat)

/-- Whether `candidate` lies in the interval when a quarter place is `scale.1 / scale.2`. -/
def Interval.holds (interval : Interval) (scale : Nat × Nat) (candidate : Nat) : Bool :=
  let point := candidate * scale.2
  let lower := interval.lower * scale.1
  let upper := interval.upper * scale.1
  if interval.closed then lower ≤ point && point ≤ upper
  else lower < point && point < upper

/-- The candidate on the grid of multiples of `10 ^ ten`, if one lies in the interval. -/
def onGrid (tie : Tie) (mantissa : Nat) (exponent ten : Int) : Option Nat :=
  let interval := Interval.of mantissa exponent
  let scale := unit (exponent - 2) ten
  let below := interval.middle * scale.1 / scale.2
  let twice := 2 * (interval.middle * scale.1 % scale.2)
  match interval.holds scale below, interval.holds scale (below + 1) with
  | false, false => none
  | true, false => some below
  | false, true => some (below + 1)
  | true, true =>
    if twice < scale.2 then some below
    else if scale.2 < twice then some (below + 1)
    else
      match tie with
      | .up => some (below + 1)
      | .toEven => if below % 2 = 0 then some below else some (below + 1)

/-- The exponent of the greatest power of ten that is not above `mantissa · 2 ^ exponent`. -/
def floorLog10 (mantissa : Nat) (exponent : Int) : Int :=
  let guess := ((mantissa.log2 : Int) + exponent) * 30103 / 100000
  let scale := unit exponent (guess + 1)
  if scale.2 ≤ mantissa * scale.1 then guess + 1 else guess

/-- Divides by ten while that leaves no remainder, up to `fuel` times. -/
def dropZeros : Nat → Nat → Int → Nat × Int
  | 0, coefficient, exponent => (coefficient, exponent)
  | fuel + 1, coefficient, exponent =>
    if coefficient % 10 = 0 ∧ coefficient ≠ 0 then dropZeros fuel (coefficient / 10) (exponent + 1)
    else (coefficient, exponent)

/-- The coefficient, not divisible by ten, and the exponent of the shortest decimal. -/
def decimal (tie : Tie) (mantissa : Nat) (exponent : Int) : Nat × Int :=
  let leading := floorLog10 mantissa exponent
  let found := (List.range 17).findSome? fun (digits : Nat) =>
    (onGrid tie mantissa exponent (leading - digits)).map fun candidate =>
      (candidate, leading - (digits : Int))
  match found with
  | some (coefficient, ten) => dropZeros 17 coefficient ten
  | none => (0, 0)

end Shortest

end TypedScript
