/-
**Escapes in string literals.** Between its quotes a literal is a sequence of units: characters that
stand for themselves, and escapes. An escape stands for one character, which is given by a letter or
by hexadecimal digits. Read back, every unit denotes what it stands for, except that two digits in
braces are left as they are written.
-/

import Mathlib.Data.Nat.Digits.Defs
import TypedScript.Proofs.Printing.Expressions

namespace TypedScript

open Text

/-! ### Units -/

/-- A hexadecimal digit. A digit above nine is a letter, which may be a capital one. -/
structure HexDigit where
  value : Fin 16
  capital : Bool

def HexDigit.char (digit : HexDigit) : Char :=
  if digit.value < 10 then Char.ofNat ('0'.toNat + digit.value)
  else Char.ofNat ((if digit.capital then 'A' else 'a').toNat + (digit.value - 10))

def codePoint (digits : List HexDigit) : Nat :=
  Nat.ofDigits 16 (digits.map fun digit => digit.value.val).reverse

/-- The letters that stand for a character behind a backslash. -/
def letterEscapes : List (Char × Char) :=
  [('n', '\n'), ('t', '\t'), ('r', '\r'), ('"', '"'), ('\\', '\\')]

/-- A unit of a string literal. Digits give the code point of a character, so that it is neither
a surrogate nor too large. -/
inductive LiteralUnit where
  | raw (c : Char) (noQuote : c ≠ '"') (noEscape : c ≠ '\\')
  | letter (written meaning : Char) (listed : (written, meaning) ∈ letterEscapes)
  | four (digits : List HexDigit) (length : digits.length = 4)
      (scalar : (codePoint digits).isValidChar)
  | braced (digits : List HexDigit) (present : 1 ≤ digits.length) (short : digits.length ≤ 6)
      (scalar : (codePoint digits).isValidChar)

namespace LiteralUnit

/-- How a unit is written. -/
def spelling : LiteralUnit → List Char
  | .raw c _ _ => [c]
  | .letter written _ _ => ['\\', written]
  | .four digits _ _ => '\\' :: 'u' :: digits.map HexDigit.char
  | .braced digits _ _ _ => '\\' :: 'u' :: '\x7b' :: (digits.map HexDigit.char ++ ['\x7d'])

/-- The character that a unit stands for. -/
def meaning : LiteralUnit → Char
  | .raw c _ _ => c
  | .letter _ meaning _ => meaning
  | .four digits _ _ => Char.ofNat (codePoint digits)
  | .braced digits _ _ _ => Char.ofNat (codePoint digits)

def isPair : LiteralUnit → Bool
  | .braced digits _ _ _ => digits.length == 2
  | _ => false

/-- The text that a unit denotes: the character that it stands for, or itself if it is two digits
in braces. -/
def denoted (unit : LiteralUnit) : List Char :=
  if unit.isPair then unit.spelling else [unit.meaning]

end LiteralUnit

/-! ### Digits -/

theorem hexDigit_char (digit : HexDigit) : hexDigit? digit.char = some digit.value.val := by
  have each : ∀ (value : Fin 16) (capital : Bool),
      hexDigit? (HexDigit.char ⟨value, capital⟩) = some value.val := by decide
  exact each digit.value digit.capital

/-- What holds of no digit: it is neither a brace nor a quote nor a backslash. -/
theorem HexDigit.char_notMem (digit : HexDigit) : digit.char ∉ ['\x7b', '\x7d', '"', '\\'] := by
  intro special
  have each : ∀ c ∈ ['\x7b', '\x7d', '"', '\\'], hexDigit? c = none := by decide
  have absent := each digit.char special
  rw [hexDigit_char] at absent
  contradiction

theorem hexNumber_digits (digits : List HexDigit) :
    hexNumber? (digits.map HexDigit.char) = some (codePoint digits) := by
  induction digits using List.reverseRecOn with
  | nil => rfl
  | append_singleton digits digit ih =>
    have last : hexNumber? ((digits ++ [digit]).map HexDigit.char) =
        (hexNumber? (digits.map HexDigit.char)).bind fun total =>
          (hexDigit? digit.char).map fun value => total * 16 + value := by
      rw [hexNumber?, List.map_append, List.foldlM_append]
      simp [hexNumber?]
    rw [last, ih, hexDigit_char]
    simp [codePoint, Nat.ofDigits_cons, Nat.mul_comm, Nat.add_comm]

theorem scalar_of_isValidChar {code : Nat} (scalar : code.isValidChar) :
    scalar? code = some (Char.ofNat code) := by
  unfold scalar?
  rw [if_pos]
  simpa [Nat.isValidChar] using scalar

theorem scalar_digits {digits : List HexDigit} (scalar : (codePoint digits).isValidChar) :
    (hexNumber? (digits.map HexDigit.char)).bind scalar? = some (Char.ofNat (codePoint digits)) := by
  rw [hexNumber_digits, Option.bind_some, scalar_of_isValidChar scalar]

/-! ### Escapes with digits -/

theorem unicodeEscape_four {digits : List HexDigit} (length : digits.length = 4)
    (scalar : (codePoint digits).isValidChar) (rest : List Char) :
    unicodeEscape? (digits.map HexDigit.char ++ rest) =
      some (Char.ofNat (codePoint digits), 4) := by
  have taken : (digits.map HexDigit.char ++ rest).take 4 = digits.map HexDigit.char :=
    List.take_left' (by rw [List.length_map, length])
  unfold unicodeEscape?
  split
  · rename_i behind same
    obtain ⟨first, others, rfl⟩ := List.exists_cons_of_length_eq_add_one length
    rw [List.map_cons, List.cons_append] at same
    have brace := (List.cons.inj same).1
    exact absurd (brace ▸ List.mem_cons_self) first.char_notMem
  · rw [taken]
    simp only [List.length_map, length, ne_eq, not_true_eq_false, if_false, scalar_digits scalar]

theorem takeWhile_digits (digits : List HexDigit) (rest : List Char) :
    (digits.map HexDigit.char ++ '\x7d' :: rest).takeWhile (fun c => c != '\x7d') =
      digits.map HexDigit.char := by
  rw [List.takeWhile_append_of_pos, List.takeWhile_cons_of_neg (by decide), List.append_nil]
  intro c member
  obtain ⟨digit, -, rfl⟩ := List.mem_map.mp member
  have special := digit.char_notMem
  simp only [List.mem_cons, not_or] at special
  simpa using special.2.1

theorem unicodeEscape_braced {digits : List HexDigit} (present : 1 ≤ digits.length)
    (short : digits.length ≤ 6) (scalar : (codePoint digits).isValidChar) (rest : List Char) :
    unicodeEscape? ('\x7b' :: (digits.map HexDigit.char ++ '\x7d' :: rest)) =
      if digits.length = 2 then none
      else some (Char.ofNat (codePoint digits), digits.length + 2) := by
  have nonempty : (digits.map HexDigit.char).isEmpty = false := by
    rw [List.isEmpty_eq_false_iff]
    rintro empty
    rw [List.map_eq_nil_iff.mp empty] at present
    contradiction
  have closes : (digits.map HexDigit.char).length ≠
      (digits.map HexDigit.char ++ '\x7d' :: rest).length := by simp
  simp only [unicodeEscape?, takeWhile_digits, nonempty, List.length_map,
    scalar_digits scalar, Bool.false_or]
  by_cases pair : digits.length = 2
  · simp [pair]
  · simp [pair, Nat.not_lt.mpr short]

/-! ### Sequences of units -/

theorem unescapeFrom_kept {text : List Char} (kept : unicodeEscape? text = none) :
    unescapeFrom 0 ('\\' :: 'u' :: text) = '\\' :: 'u' :: unescapeFrom 0 text := by
  rw [unescapeFrom]
  simp [plainEscape?, kept, unescapeFrom]

theorem unescapeFrom_unit (unit : LiteralUnit) (rest : List Char) :
    unescapeFrom 0 (unit.spelling ++ rest) = unit.denoted ++ unescapeFrom 0 rest := by
  cases unit with
  | raw c noQuote noEscape =>
    have plain : ∀ d ∈ [c], d ≠ '\\' := by simpa using noEscape
    exact unescapeFrom_plain plain rest
  | letter written meaning listed =>
    have each : ∀ pair ∈ letterEscapes, plainEscape? pair.1 = some pair.2 := by decide
    have found := each (written, meaning) listed
    show unescapeFrom 0 ('\\' :: written :: rest) = meaning :: unescapeFrom 0 rest
    rw [unescapeFrom]
    simp [found, unescapeFrom]
  | four digits length scalar =>
    have decoded := unicodeEscape_four length scalar rest
    have skipped := unescapeFrom_skip (digits.map HexDigit.char) rest
    rw [List.length_map, length] at skipped
    show unescapeFrom 0 ('\\' :: 'u' :: (digits.map HexDigit.char ++ rest)) =
      Char.ofNat (codePoint digits) :: unescapeFrom 0 rest
    rw [unescapeFrom_decoded decoded, skipped]
  | braced digits present short scalar =>
    have decoded := unicodeEscape_braced present short scalar rest
    let body := '\x7b' :: (digits.map HexDigit.char ++ ['\x7d'])
    have whole : body ++ rest = '\x7b' :: (digits.map HexDigit.char ++ '\x7d' :: rest) := by
      simp [body]
    rw [← whole] at decoded
    show unescapeFrom 0 ('\\' :: 'u' :: (body ++ rest)) = _
    by_cases pair : digits.length = 2
    · -- The backslash is left, and so is what stands behind it, where there is no other one.
      rw [if_pos pair] at decoded
      have plain : ∀ c ∈ body, c ≠ '\\' := by
        simp only [body, List.mem_cons, List.mem_append, List.mem_map, List.not_mem_nil, or_false]
        rintro c (rfl | ⟨digit, -, rfl⟩ | rfl)
        · decide
        · exact fun same => digit.char_notMem (by rw [same]; decide)
        · decide
      have denoted : LiteralUnit.denoted (.braced digits present short scalar) =
          '\\' :: 'u' :: body := by
        rw [LiteralUnit.denoted, if_pos (by simpa [LiteralUnit.isPair] using pair)]
        rfl
      rw [unescapeFrom_kept decoded, unescapeFrom_plain plain, denoted]
      rfl
    · rw [if_neg pair] at decoded
      have skipped := unescapeFrom_skip body rest
      have length : body.length = digits.length + 2 := by simp [body]
      have denoted : LiteralUnit.denoted (.braced digits present short scalar) =
          [Char.ofNat (codePoint digits)] := by
        rw [LiteralUnit.denoted, if_neg (by simpa [LiteralUnit.isPair] using pair)]
        rfl
      rw [unescapeFrom_decoded decoded, ← length, skipped, denoted]
      rfl

/-- What a sequence of units denotes. -/
theorem unescape_units (units : List LiteralUnit) :
    unescape (units.flatMap LiteralUnit.spelling) = units.flatMap LiteralUnit.denoted := by
  unfold unescape
  induction units with
  | nil => rfl
  | cons unit rest ih => rw [List.flatMap_cons, unescapeFrom_unit, ih, List.flatMap_cons]

/-! ### Reading literals -/

theorem LiteralUnit.literalBody (unit : LiteralUnit) : LiteralBody unit.spelling := by
  have digitsBody (digits : List HexDigit) : LiteralBody (digits.map HexDigit.char) := by
    induction digits with
    | nil => exact .nil
    | cons digit rest ih =>
      have special := digit.char_notMem
      simp only [List.mem_cons, List.not_mem_nil, or_false, not_or] at special
      exact .plain special.2.2.1 special.2.2.2 ih
  cases unit with
  | raw c noQuote noEscape => exact .plain noQuote noEscape .nil
  | letter written _ _ => exact .escaped written .nil
  | four digits _ _ => exact .escaped 'u' (digitsBody digits)
  | braced digits _ _ _ =>
    have closer : LiteralBody ['\x7d'] := .plain (by decide) (by decide) .nil
    exact .escaped 'u' (.plain (by decide) (by decide) ((digitsBody digits).append closer))

theorem literalBody_units (units : List LiteralUnit) :
    LiteralBody (units.flatMap LiteralUnit.spelling) := by
  induction units with
  | nil => exact .nil
  | cons unit rest ih =>
    rw [List.flatMap_cons]
    exact unit.literalBody.append ih

/-- **Reading a string literal gives what its units denote**, one after the other: each denotes the
character it stands for, but two digits in braces denote how they are written. -/
theorem readExpression_units (inner : Inner) (line : Nat) (units : List LiteralUnit) :
    readExpression inner (printQuoted (units.flatMap LiteralUnit.spelling)) line =
      .done [.text (String.ofList (units.flatMap LiteralUnit.denoted))] := by
  have start : Scan.endsInValue ⟨[], false⟩ = false := rfl
  have read : Scans inner line (printQuoted (units.flatMap LiteralUnit.spelling)) [] ⟨[], false⟩ _ :=
    scans_quoted (literalBody_units units) start
  have scanned := read []
  rw [List.append_nil, unescape_units] at scanned
  unfold readExpression
  rw [scanned]
  rfl

/-- **Not every unit denotes the character it stands for**: two digits that stand for `A` are kept. -/
theorem two_digits_kept :
    ¬ ∀ (inner : Inner) (line : Nat) (units : List LiteralUnit),
      readExpression inner (printQuoted (units.flatMap LiteralUnit.spelling)) line =
        .done [.text (String.ofList (units.map LiteralUnit.meaning))] := by
  intro decoded
  let exhausted : Inner := ⟨fun _ _ => .exhausted, fun _ _ => .exhausted⟩
  let unit : LiteralUnit := .braced [⟨4, false⟩, ⟨1, false⟩] (by decide) (by decide) (by decide)
  have kept : readExpression exhausted (printQuoted unit.spelling) 1 =
      .done [.text "\\u\x7b41\x7d"] := rfl
  have same : Reading.done [Token.text "\\u\x7b41\x7d"] = .done [.text "A"] :=
    kept.symm.trans (decoded exhausted 1 [unit])
  simp [Reading.done] at same

end TypedScript
