/-
**Double-precision numbers.** A number is a sign and a magnitude `mantissa · 2 ^ exponent` with a
53-bit mantissa, or infinite, or not a number. Every operation takes the exact rational result and
rounds it once, to the nearest such number, a tie to the even mantissa.
-/

namespace TypedScript

/-- A double-precision number. -/
inductive Binary64 where
  /-- The magnitude is `mantissa · 2 ^ exponent`. -/
  | finite (negative : Bool) (mantissa : Nat) (exponent : Int)
  /-- Too large for a finite number. -/
  | infinite (negative : Bool)
  /-- No number. -/
  | undefined
  deriving DecidableEq, Repr

namespace Binary64

/-- The least exponent, that of the smallest positive number. -/
def minExponent : Int := -1074

/-- The greatest exponent of a finite number. -/
def maxExponent : Int := 971

/-- The least mantissa of a number whose exponent is not the least one. -/
def normalMantissa : Nat := Nat.pow 2 52

/-- `2 ^ exponent` as a quotient, with the power on one side and 1 on the other. -/
def powerOfTwo (exponent : Int) : Nat × Nat :=
  (Nat.pow 2 exponent.toNat, Nat.pow 2 (-exponent).toNat)

/-- The nearest whole number to a quotient, a tie going to the even one. -/
def roundQuotient (numerator denominator : Nat) : Nat :=
  let quotient := numerator / denominator
  let twice := 2 * (numerator % denominator)
  if twice < denominator then quotient
  else if denominator < twice then quotient + 1
  else if quotient % 2 = 0 then quotient
  else quotient + 1

/-- The exponent of the greatest power of two that is not above a positive quotient. -/
def floorLog2 (numerator denominator : Nat) : Int :=
  let guess : Int := (numerator.log2 : Int) - (denominator.log2 : Int)
  let power := powerOfTwo guess
  if denominator * power.1 ≤ numerator * power.2 then guess else guess - 1

/-- Zero with the given sign. -/
def zero (negative : Bool) : Binary64 :=
  .finite negative 0 minExponent

/-- The number nearest to a quotient of natural numbers. -/
def ofRatio (negative : Bool) (numerator denominator : Nat) : Binary64 :=
  if numerator = 0 then zero negative
  else
    let exponent := max minExponent (floorLog2 numerator denominator - 52)
    let power := powerOfTwo exponent
    let mantissa := roundQuotient (numerator * power.2) (denominator * power.1)
    let carried := mantissa = 2 * normalMantissa
    let mantissa := if carried then normalMantissa else mantissa
    let exponent := if carried then exponent + 1 else exponent
    if maxExponent < exponent then .infinite negative else .finite negative mantissa exponent

/-- The number of decimal digits of a natural number. -/
def digitCount (n : Nat) : Nat :=
  (Nat.toDigits 10 n).length

/-- The number nearest to `coefficient · 10 ^ exponent`. Powers far outside the range are decided
by their size alone. -/
def ofDecimal (negative : Bool) (coefficient : Nat) (exponent : Int) : Binary64 :=
  let size : Int := digitCount coefficient + exponent
  if coefficient = 0 then zero negative
  else if 310 < size then .infinite negative
  else if size < -330 then zero negative
  else ofRatio negative (coefficient * Nat.pow 10 exponent.toNat) (Nat.pow 10 (-exponent).toNat)

/-- The magnitude of a finite number as a quotient. -/
def ratio (mantissa : Nat) (exponent : Int) : Nat × Nat :=
  let power := powerOfTwo exponent
  (mantissa * power.1, power.2)

/-- The product of two magnitudes, with the sign of the first number. -/
def mul : Binary64 → Binary64 → Binary64
  | .finite negative mantissa exponent, .finite _ otherMantissa otherExponent =>
    let left := ratio mantissa exponent
    let right := ratio otherMantissa otherExponent
    ofRatio negative (left.1 * right.1) (left.2 * right.2)
  | left, _ => left

/-- The quotient of two magnitudes, the second one not zero, with the sign of the first number. -/
def div : Binary64 → Binary64 → Binary64
  | .finite negative mantissa exponent, .finite _ otherMantissa otherExponent =>
    let left := ratio mantissa exponent
    let right := ratio otherMantissa otherExponent
    ofRatio negative (left.1 * right.2) (left.2 * right.1)
  | left, _ => left

/-- Whether the number is zero, of either sign. -/
def isZero : Binary64 → Bool
  | .finite _ mantissa _ => mantissa == 0
  | _ => false

/-- Whether the number is infinite, of either sign. -/
def isInfinite : Binary64 → Bool
  | .infinite _ => true
  | _ => false

end Binary64

end TypedScript
