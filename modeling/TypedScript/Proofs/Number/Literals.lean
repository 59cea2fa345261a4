/-
**Number literals.** A literal of a script is read as the nearest double-precision number, and its
code is the shortest decimal for that number. As long as the value of the literal does not overflow,
its code is a literal again. From there on the number is infinite, and its code is the word `inf`.
-/

import Mathlib.Algebra.Order.Ring.Nat
import Mathlib.Data.List.TakeWhile
import Mathlib.Tactic.Ring
import TypedScript.Generation.Statements
import TypedScript.Proofs.Number.Numerals
import TypedScript.Syntax.Expressions

namespace TypedScript

open Text

/-! ### Overflow -/

namespace Binary64

/-- The least magnitude that is rounded to an infinite number: halfway between the greatest finite
number and the next power of two. -/
def overflow : Nat :=
  (2 ^ 54 - 1) * 2 ^ 970

theorem overflow_pos : 0 < overflow :=
  Nat.mul_pos (by decide) (pow_pos (by decide) 970)

section Rounding

variable {numerator denominator : Nat}

theorem le_floorLog2 (above : 0 < numerator) (below : 0 < denominator) (k : Nat) :
    (k : Int) ≤ floorLog2 numerator denominator ↔ denominator * 2 ^ k ≤ numerator := by
  have first := Nat.log2_self_le above.ne'
  have first' := Nat.lt_log2_self (n := numerator)
  have second := Nat.log2_self_le below.ne'
  have second' := Nat.lt_log2_self (n := denominator)
  unfold floorLog2
  generalize numerator.log2 = a at *
  generalize denominator.log2 = b at *
  dsimp only
  rcases Nat.lt_trichotomy (k + b) a with less | same | more
  · have reached : denominator * 2 ^ k ≤ numerator := by
      calc denominator * 2 ^ k ≤ 2 ^ (b + 1) * 2 ^ k := Nat.mul_le_mul_right _ second'.le
        _ = 2 ^ (b + 1 + k) := (Nat.pow_add ..).symm
        _ ≤ 2 ^ a := Nat.pow_le_pow_right (by decide) (by omega)
        _ ≤ numerator := first
    refine iff_of_true ?_ reached
    split <;> omega
  · have guess : (a : Int) - b = k := by omega
    rw [guess]
    simp only [powerOfTwo, Int.toNat_natCast, Int.toNat_neg_natCast, Nat.pow_eq, pow_zero, mul_one]
    split
    · exact iff_of_true le_rfl ‹_›
    · exact iff_of_false (by omega) ‹_›
  · have missed : numerator < denominator * 2 ^ k := by
      calc numerator < 2 ^ (a + 1) := first'
        _ ≤ 2 ^ (b + k) := Nat.pow_le_pow_right (by decide) (by omega)
        _ = 2 ^ b * 2 ^ k := Nat.pow_add ..
        _ ≤ denominator * 2 ^ k := Nat.mul_le_mul_right _ second
    refine iff_of_false ?_ missed.not_ge
    split <;> omega

/-- Rounding goes up from an odd number as soon as half of the way is done. -/
theorem lt_roundQuotient {odd : Nat} (isOdd : odd % 2 = 1) (below : 0 < denominator) :
    odd < roundQuotient numerator denominator ↔ (2 * odd + 1) * denominator ≤ 2 * numerator := by
  have split := Nat.div_add_mod numerator denominator
  have rest := Nat.mod_lt numerator below
  have scaled : (2 * odd + 1) * denominator = 2 * (denominator * odd) + denominator := by ring
  rw [scaled]
  unfold roundQuotient
  dsimp only
  generalize numerator / denominator = quotient at *
  generalize numerator % denominator = remainder at *
  rcases Nat.lt_trichotomy quotient odd with less | rfl | more
  · have bound := Nat.mul_le_mul_left denominator (Nat.succ_le_of_lt less)
    rw [Nat.mul_succ] at bound
    refine iff_of_false ?_ (by omega)
    split_ifs <;> omega
  · split_ifs <;> omega
  · have bound := Nat.mul_le_mul_left denominator (Nat.succ_le_of_lt more)
    rw [Nat.mul_succ] at bound
    refine iff_of_true ?_ (by omega)
    split_ifs <;> omega

theorem roundQuotient_le : roundQuotient numerator denominator ≤ numerator / denominator + 1 := by
  unfold roundQuotient
  dsimp only
  split_ifs <;> omega

theorem powerOfTwo_succ (k : Nat) : powerOfTwo (k + 1) = (2 ^ k * 2, 1) := by
  rw [← pow_succ]
  exact Prod.ext (congrArg (2 ^ ·) (Int.toNat_natCast (k + 1))) rfl

/-- **A quotient is rounded to an infinite number exactly from the overflow on.** -/
theorem ofRatio_cases (negative : Bool) (numerator : Nat) (below : 0 < denominator) :
    overflow * denominator ≤ numerator ∧
        ofRatio negative numerator denominator = .infinite negative ∨
      numerator < overflow * denominator ∧
        ∃ mantissa exponent,
          ofRatio negative numerator denominator = .finite negative mantissa exponent := by
  rcases Nat.eq_zero_or_pos numerator with rfl | above
  · exact .inr ⟨Nat.mul_pos overflow_pos below, 0, minExponent, rfl⟩
  have low := le_floorLog2 above below (53 + 970)
  have high := le_floorLog2 above below (54 + 970)
  rw [pow_add 2 53 970, Nat.mul_left_comm] at low
  rw [pow_add 2 54 970, Nat.mul_left_comm] at high
  have bound : overflow * denominator = (2 ^ 54 - 1) * (denominator * 2 ^ 970) := by
    rw [overflow, mul_assoc, mul_comm denominator]
  have positive : 0 < denominator * 2 ^ 970 := Nat.mul_pos below (pow_pos (by decide) 970)
  rw [bound]
  unfold ofRatio
  rw [if_neg above.ne']
  generalize floorLog2 numerator denominator = log at *
  dsimp only
  rcases Int.lt_trichotomy log 1023 with less | rfl | more
  · have finite (mantissa : Nat) : ¬maxExponent <
        if mantissa = 2 * normalMantissa then max minExponent (log - 52) + 1
        else max minExponent (log - 52) := by
      unfold maxExponent minExponent
      split_ifs <;> omega
    rw [if_neg (finite _)]
    exact .inr ⟨by omega, _, _, rfl⟩
  · rw [show max minExponent (1023 - 52) = (970 : Nat) + 1 from rfl, powerOfTwo_succ]
    rw [← mul_assoc denominator]
    generalize denominator * 2 ^ 970 = unit at *
    have up : 2 ^ 53 - 1 < roundQuotient (numerator * 1) (unit * 2) ↔ _ :=
      lt_roundQuotient (by decide) (by omega)
    have rounded : roundQuotient (numerator * 1) (unit * 2) ≤ numerator * 1 / (unit * 2) + 1 :=
      roundQuotient_le
    have quotient : numerator * 1 / (unit * 2) < 2 ^ 53 :=
      Nat.div_lt_of_lt_mul (by omega)
    generalize roundQuotient (numerator * 1) (unit * 2) = mantissa at *
    have normal : 2 * normalMantissa = 2 ^ 53 := rfl
    by_cases carried : mantissa = 2 * normalMantissa
    · rw [if_pos carried, if_pos carried]
      exact .inl ⟨by omega, rfl⟩
    · rw [if_neg carried, if_neg carried]
      exact .inr ⟨by omega, _, _, rfl⟩
  · have infinite (mantissa : Nat) : maxExponent <
        if mantissa = 2 * normalMantissa then max minExponent (log - 52) + 1
        else max minExponent (log - 52) := by
      unfold maxExponent minExponent
      split_ifs <;> omega
    rw [if_pos (infinite _)]
    exact .inl ⟨by omega, rfl⟩

end Rounding

/-- The same for digits with a point among them. -/
theorem ofDecimal_cases (negative : Bool) (coefficient places : Nat) :
    overflow * 10 ^ places ≤ coefficient ∧
        ofDecimal negative coefficient (-places) = .infinite negative ∨
      coefficient < overflow * 10 ^ places ∧
        ∃ mantissa exponent,
          ofDecimal negative coefficient (-places) = .finite negative mantissa exponent := by
  have count (k : Nat) (positive : 0 < k) : digitCount coefficient ≤ k ↔ coefficient < 10 ^ k :=
    Nat.length_toDigits_le_iff (by decide) positive
  have powers : 0 < 10 ^ places := pow_pos (by decide) places
  unfold ofDecimal
  dsimp only
  split_ifs with zero large small
  · exact .inr ⟨zero ▸ Nat.mul_pos overflow_pos powers, 0, minExponent, rfl⟩
  · refine .inl ⟨?_, rfl⟩
    have digits := (count (310 + places) (by omega)).not.mp (by omega)
    have enough : overflow ≤ 10 ^ 310 := by decide +kernel
    rw [pow_add] at digits
    exact (Nat.mul_le_mul_right _ enough).trans (not_lt.mp digits)
  · refine .inr ⟨?_, 0, minExponent, rfl⟩
    have digits := (count places (by omega)).mp (by omega)
    exact digits.trans_le (Nat.le_mul_of_pos_left _ overflow_pos)
  · have ratio := ofRatio_cases negative coefficient powers
    simpa using ratio

end Binary64

/-! ### Literals -/

namespace Number

/-- A sign, digits and perhaps a fraction. -/
def IsLiteral (text : List Char) : Prop :=
  ∃ negative whole fraction, Digits whole ∧ Fraction fraction ∧
    text = signed negative (whole ++ fraction)

/-- A text that may stand for a number in a script: a sign, and digits with at most one point among
them. -/
structure Spells (text : List Char) (negative : Bool) (whole fraction : List Char) : Prop where
  digits : Digits (whole ++ fraction)
  text : text = signed negative (whole ++ '.' :: fraction) ∨
    fraction = [] ∧ text = signed negative whole

end Number

open Number (Spells)

/-- What is read of a number is its sign and its digits, of which some may stand behind a point. -/
theorem spells_of_parts? {text : List Char} {coefficient : Nat} {exponent : Int} (negative : Bool)
    (read : Decimal.parts? text = some (coefficient, exponent)) :
    ∃ whole fraction, Spells (Number.signed negative text) negative whole fraction ∧
      coefficient = Decimal.natOfDigits (whole ++ fraction) ∧
      exponent = -(fraction.length : Int) := by
  have split := List.takeWhile_append_dropWhile (p := isAsciiDigit) (l := text)
  have front : ∀ c ∈ text.takeWhile isAsciiDigit, isAsciiDigit c = true :=
    fun c member => List.mem_takeWhile_imp member
  unfold Decimal.parts? at read
  generalize text.takeWhile isAsciiDigit = whole at *
  dsimp only at read
  split at read
  · contradiction
  · rename_i fraction found
    split at read
    · contradiction
    · rename_i nonempty
      obtain ⟨rfl, rfl⟩ := Prod.mk.inj (Option.some.inj read)
      have nonempty : whole ++ fraction ≠ [] := by simpa using nonempty
      split at found
      · rename_i ends
        obtain rfl := Option.some.inj found
        rw [ends, List.append_nil] at split
        subst split
        exact ⟨whole, [], ⟨⟨nonempty, by simpa using front⟩, .inr ⟨rfl, rfl⟩⟩, rfl, rfl⟩
      · rename_i digits point
        split at found
        · rename_i all
          obtain rfl := Option.some.inj found
          rw [point] at split
          subst split
          refine ⟨whole, digits, ⟨⟨nonempty, fun c member => ?_⟩, .inl rfl⟩, rfl, rfl⟩
          exact (List.mem_append.mp member).elim (front c) (List.all_eq_true.mp all c)
        · contradiction
      · contradiction

theorem readNumber_done {c : Char} {rest : List Char} {line : Nat} {token : Token} {length : Nat}
    (read : readNumber c rest line = .done (token, length)) :
    ∃ negative whole fraction, Spells ((c :: rest).take length) negative whole fraction ∧
      token = .number (.ofDecimal negative (Decimal.natOfDigits (whole ++ fraction))
        (-(fraction.length : Int))) := by
  unfold readNumber at read
  dsimp only at read
  split at read
  · rename_i value found
    have outcome := congrArg Reading.outcome read
    obtain ⟨rfl, rfl⟩ := Prod.mk.inj (Except.ok.inj outcome)
    rw [← List.prefix_iff_eq_take.mp ((List.prefix_cons_inj c).mpr (List.takeWhile_prefix _))]
    unfold Decimal.ofPlain? at found
    split at found
    rename_i negative digits split
    obtain ⟨⟨coefficient, exponent⟩, parts, rfl⟩ := Option.map_eq_some_iff.mp found
    obtain ⟨whole, fraction, spells, rfl, rfl⟩ := spells_of_parts? negative parts
    refine ⟨negative, whole, fraction, ?_, rfl⟩
    split at split
    · rename_i signed
      obtain ⟨rfl, rfl⟩ := Prod.mk.inj split
      rwa [signed]
    · obtain ⟨rfl, rfl⟩ := Prod.mk.inj split
      exact spells
  · have outcome : Except.error _ = Except.ok _ := congrArg Reading.outcome read
    contradiction

open Number (IsLiteral) in
/-- **The code of a number literal.** Every literal that is read is a sign and digits with at most
one point among them. If its value is below the overflow, it is emitted as a literal again: a sign,
digits, and perhaps a point and more digits, never an exponent. Otherwise it is emitted as the word
`inf`, with its sign. -/
theorem literal_emitted {c : Char} {rest : List Char} {line : Nat} {token : Token} {length : Nat}
    (read : readNumber c rest line = .done (token, length)) (context : Context) (indent : Nat) :
    ∃ negative whole fraction value, Spells ((c :: rest).take length) negative whole fraction ∧
      generateValue line token context = (some value, context) ∧
      (Decimal.natOfDigits (whole ++ fraction) < Binary64.overflow * 10 ^ fraction.length →
        IsLiteral (value.code.write indent).toList) ∧
      (Binary64.overflow * 10 ^ fraction.length ≤ Decimal.natOfDigits (whole ++ fraction) →
        value.code.write indent = String.ofList (Number.signed negative ['i', 'n', 'f'])) := by
  obtain ⟨negative, whole, fraction, spells, rfl⟩ := readNumber_done read
  refine ⟨negative, whole, fraction, _, spells, by rw [generateValue]; rfl, ?_⟩
  rw [Target.Expr.write, String.toList_ofList]
  rcases Binary64.ofDecimal_cases negative (Decimal.natOfDigits (whole ++ fraction)) fraction.length
    with ⟨above, infinite⟩ | ⟨under, mantissa, exponent, finite⟩
  · rw [infinite]
    exact ⟨fun under => absurd above under.not_ge, fun _ => rfl⟩
  · rw [finite]
    refine ⟨fun _ => ?_, fun above => absurd above under.not_ge⟩
    obtain ⟨front, back, isWhole, isFraction, same⟩ :=
      Number.literalStyle.magnitude_plain mantissa exponent fun _ => rfl
    exact ⟨negative, front, back, isWhole.toDigits, isFraction, by rw [← same]; rfl⟩

open Number (IsLiteral) in
/-- The least magnitude that overflows, with a minus sign. -/
theorem literal_emitted_overflow :
    let digits := Nat.toDigits 10 Binary64.overflow
    let token := Token.number (.infinite true)
    let context := Context.start fun path => .error (.variableNotDeclared path)
    readNumber '-' digits 1 = .done (token, 310) ∧
      ∃ negative whole fraction value, Spells (('-' :: digits).take 310) negative whole fraction ∧
        generateValue 1 token context = (some value, context) ∧
        (Decimal.natOfDigits (whole ++ fraction) < Binary64.overflow * 10 ^ fraction.length →
          IsLiteral (value.code.write 0).toList) ∧
        (Binary64.overflow * 10 ^ fraction.length ≤ Decimal.natOfDigits (whole ++ fraction) →
          value.code.write 0 = String.ofList (Number.signed negative ['i', 'n', 'f'])) := by
  intro digits token context
  have value : Decimal.ofPlain? ('-' :: digits.takeWhile fun c => isAsciiDigit c || c == '.') =
      some (.infinite true) := by decide +kernel
  have length : (digits.takeWhile fun c => isAsciiDigit c || c == '.').length = 309 := by
    decide +kernel
  have read : readNumber '-' digits 1 = .done (token, 310) := by
    simp only [readNumber, value, List.length_cons, length, token]
  exact ⟨read, literal_emitted read context 0⟩

open Number (IsLiteral) in
/-- **The first power of ten that overflows is emitted as a word**, which is no literal. -/
theorem overflow_emitted_as_word :
    let digits := List.replicate 309 '0'
    let context := Context.start fun path => .error (.variableNotDeclared path)
    ∃ token value, readNumber '1' digits 1 = .done (token, 310) ∧
      generateValue 1 token context = (some value, context) ∧
      value.code.write 0 = "inf" ∧ ¬IsLiteral (value.code.write 0).toList := by
  intro digits context
  have value : Decimal.ofPlain? ('1' :: digits.takeWhile fun c => isAsciiDigit c || c == '.') =
      some (.infinite false) := by decide +kernel
  have length : (digits.takeWhile fun c => isAsciiDigit c || c == '.').length = 309 := by
    decide +kernel
  refine ⟨.number (.infinite false), ⟨.number, .number (.infinite false)⟩, ?_, ?_, rfl, ?_⟩
  · simp only [readNumber, value, List.length_cons, length]
  · rw [generateValue]
    rfl
  · rintro ⟨negative, whole, fraction, isDigits, -, same⟩
    obtain ⟨c, more, rfl⟩ := List.exists_cons_of_ne_nil isDigits.nonempty
    have digit := isDigits.digits c List.mem_cons_self
    have same : ['i', 'n', 'f'] = Number.signed negative (c :: more ++ fraction) := same
    cases negative with
    | true => exact absurd (List.cons.inj same).1 (by decide)
    | false =>
      obtain rfl := (List.cons.inj same).1
      exact absurd digit (by decide)

end TypedScript
