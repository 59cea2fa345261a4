/-
**The shape of written numbers.** A finite number is written as an optional minus sign and a
numeral: a whole part without needless zeros in front, then perhaps a fraction, then perhaps an
exponent. Whatever the style, the text is one number token.

* `plain_numeral`, `scientific_numeral`: digits as they are laid out.
-/

import TypedScript.Json.Basic
import TypedScript.Text.Alphabet

namespace TypedScript.Number

open Text

variable {mantissa : Nat}

/-- One digit or more. -/
structure Digits (text : List Char) : Prop where
  nonempty : text ≠ []
  digits : ∀ c ∈ text, isAsciiDigit c = true

/-- A number without a leading zero. -/
structure Whole (text : List Char) : Prop extends Digits text where
  noLeadingZero : text = ['0'] ∨ text.head? ≠ some '0'

/-- A point and digits, or nothing. -/
inductive Fraction : List Char → Prop
  | none : Fraction []
  | some (isDigits : Digits digits) : Fraction ('.' :: digits)

/-- An exponent with a sign, or nothing. -/
inductive Exponent : List Char → Prop
  | none : Exponent []
  | some (isSign : sign = '+' ∨ sign = '-') (isDigits : Digits digits) :
      Exponent ('e' :: sign :: digits)

/-- A number without a sign. -/
structure Numeral (text : List Char) : Prop where
  parts : ∃ whole fraction exponent, Whole whole ∧ Fraction fraction ∧ Exponent exponent ∧
    text = whole ++ (fraction ++ exponent)

/-! ### Digits -/

theorem isAsciiDigit_of_isDigit {c : Char} (digit : c.isDigit = true) : isAsciiDigit c = true := by
  simpa [isAsciiDigit, Char.isDigit, Char.le_def] using digit

theorem Digits.append {first second : List Char} (isDigits : Digits first)
    (digits : ∀ c ∈ second, isAsciiDigit c = true) : Digits (first ++ second) where
  nonempty := by simp [isDigits.nonempty]
  digits c member := (List.mem_append.mp member).elim (isDigits.digits c) (digits c)

theorem isAsciiDigit_of_mem_replicate {count : Nat} :
    ∀ c ∈ List.replicate count '0', isAsciiDigit c = true := by
  intro c member
  rw [List.eq_of_mem_replicate member]
  rfl

theorem digits_toDigits (n : Nat) : Digits (Nat.toDigits 10 n) where
  nonempty := Nat.toDigits_ne_nil
  digits _ member :=
    isAsciiDigit_of_isDigit (Nat.isDigit_of_mem_toDigits (by decide) (by decide) member)

theorem head_toDigits {n : Nat} (positive : 0 < n) : (Nat.toDigits 10 n).head? ≠ some '0' := by
  induction n using Nat.strongRecOn with
  | ind n ih =>
    by_cases small : n < 10
    · rw [Nat.toDigits_of_lt_base small]
      have each : ∀ digit < 10, 0 < digit → [Nat.digitChar digit].head? ≠ some '0' := by decide
      exact each n small positive
    · rw [Nat.toDigits_of_base_le (by decide) (by omega), List.head?_append]
      have front := ih (n / 10) (by omega) (by omega)
      obtain ⟨c, rest, same⟩ := List.exists_cons_of_ne_nil (@Nat.toDigits_ne_nil (n / 10) 10)
      rw [same] at front ⊢
      exact front

theorem whole_toDigits (n : Nat) : Whole (Nat.toDigits 10 n) where
  toDigits := digits_toDigits n
  noLeadingZero := by
    rcases Nat.eq_zero_or_pos n with rfl | positive
    · exact .inl (Nat.toDigits_zero 10)
    · exact .inr (head_toDigits positive)

/-! ### Layouts -/

/-- Digits that are moved by a power of ten. A single zero is not moved. -/
theorem plain_numeral {fraction : Bool} {digits : List Char} (whole : Whole digits) {exponent : Int}
    (leading : digits.head? ≠ some '0' ∨ exponent = 0) :
    ∃ front back, Whole front ∧ Fraction back ∧ plain fraction digits exponent = front ++ back := by
  unfold plain
  split
  · rename_i nonneg
    refine ⟨digits ++ List.replicate exponent.toNat '0', if fraction then ['.', '0'] else [], ?_, ?_,
      rfl⟩
    · refine ⟨whole.toDigits.append isAsciiDigit_of_mem_replicate, ?_⟩
      rcases leading with leading | rfl
      · right
        obtain ⟨c, rest, rfl⟩ := List.exists_cons_of_ne_nil whole.nonempty
        exact leading
      · simpa using whole.noLeadingZero
    · split
      · exact .some ⟨by simp, by simp [isAsciiDigit]⟩
      · exact .none
  · rename_i negative
    have leading : digits.head? ≠ some '0' := leading.resolve_right (by omega)
    dsimp only
    split
    · rename_i places
      have shorter : 0 < digits.length - (-exponent).toNat := by omega
      refine ⟨digits.take (digits.length - (-exponent).toNat), _, ⟨⟨?_, ?_⟩, .inr ?_⟩,
        .some ⟨?_, ?_⟩, rfl⟩
      · simp [whole.nonempty]
        omega
      · exact fun c member => whole.digits c (List.mem_of_mem_take member)
      · rw [List.head?_take, if_neg (by omega)]
        exact leading
      · simp
        omega
      · exact fun c member => whole.digits c (List.mem_of_mem_drop member)
    · refine ⟨['0'], _, ⟨⟨by simp, by simp [isAsciiDigit]⟩, .inl rfl⟩, .some ⟨?_, ?_⟩, rfl⟩
      · simp [whole.nonempty]
      · intro c member
        exact (List.mem_append.mp member).elim (isAsciiDigit_of_mem_replicate c) (whole.digits c)

theorem scientific_numeral {digits : List Char} (whole : Whole digits) (leading : Int) :
    Numeral (scientific digits leading) := by
  have isSign : (if leading < 0 then '-' else '+') = '+' ∨
      (if leading < 0 then '-' else '+') = '-' := by
    split
    · exact .inr rfl
    · exact .inl rfl
  have exponent := Exponent.some isSign (digits_toDigits leading.natAbs)
  unfold scientific
  by_cases single : digits.length ≤ 1
  · exact ⟨digits, [], _, whole, .none, exponent, by rw [if_pos single]; rfl⟩
  · obtain ⟨first, second, rest, rfl⟩ : ∃ first second rest, digits = first :: second :: rest := by
      rcases digits with _ | ⟨first, _ | ⟨second, rest⟩⟩
      · exact absurd (Nat.zero_le 1) single
      · exact absurd (Nat.le_refl 1) single
      · exact ⟨first, second, rest, rfl⟩
    refine ⟨[first], '.' :: second :: rest, _, ⟨⟨by simp, ?_⟩, .inr ?_⟩, .some ⟨by simp, ?_⟩,
      exponent, by rw [if_neg single]; rfl⟩
    · exact fun c member => whole.digits c (by simp_all)
    · exact whole.noLeadingZero.resolve_left (by simp)
    · exact fun c member => whole.digits c (List.mem_cons_of_mem _ member)

/-! ### Magnitudes -/

theorem Shortest.Interval.lower_pos (exponent : Int) (positive : 0 < mantissa) :
    0 < (Shortest.Interval.of mantissa exponent).lower := by
  unfold Shortest.Interval.of
  dsimp only
  split <;> omega

/-- The interval of a positive number does not reach zero. -/
theorem onGrid_pos {tie : Tie} {candidate : Nat} {exponent ten : Int} (positive : 0 < mantissa)
    (found : Shortest.onGrid tie mantissa exponent ten = some candidate) : 0 < candidate := by
  have apart : (Shortest.Interval.of mantissa exponent).holds
      (Shortest.unit (exponent - 2) ten) 0 = false := by
    have lower := Shortest.Interval.lower_pos exponent positive
    have scale : 0 < (Shortest.unit (exponent - 2) ten).1 :=
      Nat.mul_pos (Nat.pow_pos (by decide)) (Nat.pow_pos (by decide))
    have bound := Nat.mul_pos lower scale
    unfold Shortest.Interval.holds
    simp only [Nat.zero_mul]
    split
    · rw [decide_eq_false (Nat.not_le_of_lt bound), Bool.false_and]
    · rw [decide_eq_false (Nat.not_lt_zero _), Bool.false_and]
  unfold Shortest.onGrid at found
  dsimp only at found
  generalize Shortest.Interval.middle _ * _ / _ = below at found
  have positive_of_holds (holds : (Shortest.Interval.of mantissa exponent).holds
      (Shortest.unit (exponent - 2) ten) below = true) : 0 < below := by
    rcases Nat.eq_zero_or_pos below with rfl | above
    · rw [apart] at holds
      contradiction
    · exact above
  split at found
  · contradiction
  · rename_i holds _
    exact Option.some.inj found ▸ positive_of_holds holds
  · exact Option.some.inj found ▸ Nat.succ_pos below
  · rename_i holds _
    have below_pos := positive_of_holds holds
    have either : some candidate = some below ∨ some candidate = some (below + 1) := by
      rw [← found]
      split
      · exact .inl rfl
      · split
        · exact .inr rfl
        · cases tie with
          | up => exact .inr rfl
          | toEven =>
            dsimp only
            split
            · exact .inl rfl
            · exact .inr rfl
    rcases either with same | same
    · exact Option.some.inj same ▸ below_pos
    · exact Option.some.inj same ▸ Nat.succ_pos below

theorem dropZeros_pos {fuel coefficient : Nat} {exponent : Int} (positive : 0 < coefficient) :
    0 < (Shortest.dropZeros fuel coefficient exponent).1 := by
  induction fuel generalizing coefficient exponent with
  | zero => exact positive
  | succ fuel ih =>
    unfold Shortest.dropZeros
    split
    · exact ih (by omega)
    · exact positive

theorem decimal_pos (tie : Tie) (exponent : Int) (positive : 0 < mantissa) :
    0 < (Shortest.decimal tie mantissa exponent).1 ∨
      Shortest.decimal tie mantissa exponent = (0, 0) := by
  unfold Shortest.decimal
  dsimp only
  split
  · rename_i coefficient ten found
    obtain ⟨digits, _, onGrid⟩ := List.exists_of_findSome?_eq_some found
    obtain ⟨candidate, hit, same⟩ := Option.map_eq_some_iff.mp onGrid
    obtain ⟨rfl, -⟩ := Prod.mk.inj same
    exact .inl (dropZeros_pos (onGrid_pos positive hit))
  · exact .inr rfl

theorem leading_decimal (tie : Tie) (exponent : Int) (nonzero : mantissa ≠ 0) :
    (Nat.toDigits 10 (Shortest.decimal tie mantissa exponent).1).head? ≠ some '0' ∨
      (Shortest.decimal tie mantissa exponent).2 = 0 := by
  rcases decimal_pos tie exponent (Nat.pos_of_ne_zero nonzero) with positive | zero
  · exact .inl (head_toDigits positive)
  · exact .inr (by rw [zero])

theorem Style.magnitude_plain (style : Style) (mantissa : Nat) (exponent : Int)
    (isPlain : ∀ leading, style.isPlain leading = true) :
    ∃ front back, Whole front ∧ Fraction back ∧
      style.magnitude mantissa exponent = front ++ back := by
  unfold Style.magnitude
  split
  · exact plain_numeral ⟨⟨by simp, by simp [isAsciiDigit]⟩, .inl rfl⟩ (.inr rfl)
  · rename_i nonzero
    dsimp only
    rw [isPlain, if_pos rfl]
    exact plain_numeral (whole_toDigits _) (leading_decimal style.tie exponent nonzero)

/-- Every magnitude is a numeral in every style. -/
theorem Style.magnitude_numeral (style : Style) (mantissa : Nat) (exponent : Int) :
    Numeral (style.magnitude mantissa exponent) := by
  have unpowered {fraction : Bool} {digits : List Char} (whole : Whole digits) {exponent : Int}
      (leading : digits.head? ≠ some '0' ∨ exponent = 0) :
      Numeral (plain fraction digits exponent) := by
    obtain ⟨front, back, isWhole, isFraction, same⟩ := plain_numeral whole leading
    exact ⟨front, back, [], isWhole, isFraction, .none, by rw [same, List.append_nil]⟩
  unfold Style.magnitude
  split
  · exact unpowered ⟨⟨by simp, by simp [isAsciiDigit]⟩, .inl rfl⟩ (.inr rfl)
  · rename_i nonzero
    dsimp only
    split
    · exact unpowered (whole_toDigits _) (leading_decimal style.tie exponent nonzero)
    · exact scientific_numeral (whole_toDigits _) _

end TypedScript.Number
