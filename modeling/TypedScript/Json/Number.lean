/-
**Numbers in JSON text.** A whole number that fits 64 bits stays exact. Any other number is read as
a significand of at most 64 bits and a power of ten: digits that do not fit the significand only
move the power. The significand is rounded to double precision and then scaled by one power of ten
at a time, each step rounded again.
-/

import TypedScript.Json.Basic
import TypedScript.Json.Input

namespace TypedScript.Json

open Text

/-- The greatest significand, one less than the 64th power of two. -/
def maxSignificand : Nat := 18446744073709551615

/-- The greatest exponent that is counted out digit by digit, one less than the 31st power of
two. -/
def maxExponent : Nat := 2147483647

/-- Scales a significand by a power of ten. Powers beyond `10 ^ 308` are divided out in steps, of
which three are enough to reach zero. -/
def scale : Nat → Binary64 → Int → Option Binary64
  | 0, number, _ => some number
  | steps + 1, number, exponent =>
    if exponent.natAbs ≤ 308 then
      let power := Binary64.ofDecimal false 1 exponent.natAbs
      if 0 ≤ exponent then
        let product := number.mul power
        if product.isInfinite then none else some product
      else some (number.div power)
    else if number.isZero then some number
    else if 0 ≤ exponent then none
    else scale steps (number.div (Binary64.ofDecimal false 1 308)) (exponent + 308)

variable (negative : Bool) (significand : Nat) (exponent : Int) (input : Input)

/-- The number of a significand and a power of ten. -/
def ofParts : Except Fault (Json × Input) :=
  match scale 4 (Binary64.ofDecimal negative significand 0) exponent with
  | some number => .ok (.float number, input)
  | none => .error (input.here .outOfRange)

/-- The digits a text starts with. -/
def leadingDigits (input : Input) : List Char :=
  input.rest.takeWhile isAsciiDigit

/-- The number of digits as far as they fit, and how many are left. -/
def takeDigits : Nat → List Char → Nat × Nat
  | significand, [] => (significand, 0)
  | significand, c :: rest =>
    let next := significand * 10 + (c.toNat - '0'.toNat)
    if maxSignificand < next then (significand, 0)
    else
      let (total, count) := takeDigits next rest
      (total, count + 1)

/-- The value of the digits of an exponent, as long as it is not beyond the greatest one, and how
many of them were counted. -/
def takeExponent : Nat → List Char → Option Nat × Nat
  | exponent, [] => (some exponent, 0)
  | exponent, c :: rest =>
    let next := exponent * 10 + (c.toNat - '0'.toNat)
    if maxExponent < next then (none, 1)
    else
      let (total, count) := takeExponent next rest
      (total, count + 1)

/-- A number from its exponent on. -/
def readExponent : Except Fault (Json × Input) :=
  let input := input.drop 1
  let (down, input) :=
    match input.rest with
    | '+' :: _ => (false, input.drop 1)
    | '-' :: _ => (true, input.drop 1)
    | _ => (false, input)
  match input.rest with
  | [] => .error (input.here .endInValue)
  | c :: _ =>
    if !isAsciiDigit c then .error ⟨.invalidNumber, input.bytes + 1⟩
    else
      let digits := leadingDigits input
      match takeExponent 0 digits with
      | (some power, _) =>
        let power : Int := if down then exponent - power else exponent + power
        ofParts negative significand power (input.drop digits.length)
      | (none, count) =>
        if significand ≠ 0 && !down then .error ((input.drop count).here .outOfRange)
        else .ok (.float (Binary64.zero negative), input.drop digits.length)

/-- Reads what may follow the digits of a fraction or of a long whole number. -/
def readPower : Except Fault (Json × Input) :=
  match input.rest with
  | 'e' :: _ => readExponent negative significand exponent input
  | 'E' :: _ => readExponent negative significand exponent input
  | _ => ofParts negative significand exponent input

/-- A number from its point on. -/
def readFraction : Except Fault (Json × Input) :=
  let input := input.drop 1
  let digits := leadingDigits input
  match digits, input.rest with
  | [], [] => .error (input.ahead .endInValue)
  | [], _ :: _ => .error (input.ahead .invalidNumber)
  | _, _ =>
    let (significand, count) := takeDigits significand digits
    readPower negative significand (exponent - count) (input.drop digits.length)

/-- The greatest magnitude of a negative integer, the 63rd power of two. -/
def maxNegative : Nat := 9223372036854775808

/-- The number of a whole number without point or exponent. -/
def ofWhole : Json :=
  if !negative then .int significand
  else if significand = 0 || maxNegative < significand then
    .float (Binary64.ofDecimal true significand 0)
  else .int (-(significand : Int))

/-- A number behind its sign. -/
def readNumber : Reader Json := fun input =>
  match input.rest with
  | [] => .error (input.here .endInValue)
  | c :: _ =>
    if !isAsciiDigit c then .error ⟨.invalidNumber, input.bytes + 1⟩
    else
      let digits := if c = '0' then ['0'] else leadingDigits input
      let (significand, count) := takeDigits 0 digits
      let after := input.drop digits.length
      match after.rest with
      | next :: _ =>
        if isAsciiDigit next then .error (after.ahead .invalidNumber)
        else if next = '.' then
          readFraction negative significand (digits.length - count) after
        else if next = 'e' || next = 'E' then
          readExponent negative significand (digits.length - count) after
        else if count < digits.length then
          ofParts negative significand (digits.length - count) after
        else .ok (ofWhole negative significand, after)
      | [] =>
        if count < digits.length then ofParts negative significand (digits.length - count) after
        else .ok (ofWhole negative significand, after)

/-! ### Passing over numbers -/

/-- Passes over an exponent from its mark on. -/
def skipExponent (input : Input) : Except Fault Input :=
  let input := input.drop 1
  let input :=
    match input.rest with
    | '+' :: _ => input.drop 1
    | '-' :: _ => input.drop 1
    | _ => input
  match input.rest with
  | [] => .error (input.here .invalidNumber)
  | c :: _ =>
    if isAsciiDigit c then .ok (input.drop (leadingDigits input).length)
    else .error ⟨.invalidNumber, input.bytes + 1⟩

/-- Passes over a number. -/
def skipNumber (input : Input) : Except Fault Input :=
  match input.rest with
  | [] => .error (input.here .invalidNumber)
  | c :: _ =>
    if !isAsciiDigit c then .error ⟨.invalidNumber, input.bytes + 1⟩
    else
      let after := input.drop (if c = '0' then 1 else (leadingDigits input).length)
      match after.rest with
      | [] => .ok after
      | next :: _ =>
        if isAsciiDigit next then .error (after.ahead .invalidNumber)
        else if next = 'e' || next = 'E' then skipExponent after
        else if next = '.' then
          let fraction := leadingDigits (after.drop 1)
          let behind := after.drop (1 + fraction.length)
          if fraction.isEmpty then .error (behind.ahead .invalidNumber)
          else
            match behind.rest with
            | 'e' :: _ => skipExponent behind
            | 'E' :: _ => skipExponent behind
            | _ => .ok behind
        else .ok after

end TypedScript.Json
