/-
**Shapes of printed expressions.** Printed expressions are passable, and they neither start nor end
with a blank.

* `tokens_passable`, `arguments_passable`: printed expressions and arguments are passable.
-/

import TypedScript.Proofs.Number.Numerals
import TypedScript.Proofs.Printing.Passing

namespace TypedScript

open Text

variable {c : Char} {rest : List Char} {name : String} {brackets : Brackets}
  {texts : List (List Char)} {arguments : List (List Token)} {front back : List Char}

/-! ### Blanks at the ends -/

/-- A text that neither starts nor ends with a blank. -/
structure Shown (text : List Char) : Prop where
  nonempty : text ≠ []
  first : ∀ c ∈ text.head?, isBlank c = false
  last : ∀ c ∈ text.getLast?, isBlank c = false

namespace Shown

variable {text front back : List Char}

theorem trim (shown : Shown text) : trim text = text :=
  trim_eq_self_of_ends shown.first shown.last

theorem of_all (nonempty : text ≠ []) (all : ∀ c ∈ text, isBlank c = false) : Shown text where
  nonempty := nonempty
  first c head := all c (List.mem_of_mem_head? head)
  last c last := all c (List.mem_of_getLast? last)

theorem join (first : Shown front) (second : Shown back) (middle : List Char) :
    Shown (front ++ (middle ++ back)) := by
  obtain ⟨c, rest, rfl⟩ := List.exists_cons_of_ne_nil first.nonempty
  refine ⟨by simp, fun d head => first.first d head, ?_⟩
  rw [← List.append_assoc, List.getLast?_append_of_ne_nil _ second.nonempty]
  exact second.last

end Shown

/-! ### Characters of words -/

theorem isAsciiWord_code (word : isAsciiWord c = true) : c.toNat < 128 := by
  simp only [isAsciiWord, isAsciiLetter, isAsciiDigit, Bool.or_eq_true, Bool.and_eq_true,
    decide_eq_true_eq, beq_iff_eq, Char.le_def, UInt32.le_iff_toNat_le] at word
  rcases word with ((⟨-, upper⟩ | ⟨-, upper⟩) | ⟨-, upper⟩) | rfl
  · exact Nat.lt_of_le_of_lt upper (by decide)
  · exact Nat.lt_of_le_of_lt upper (by decide)
  · exact Nat.lt_of_le_of_lt upper (by decide)
  · decide

theorem of_ascii (holds : Char → Prop) (each : ∀ code < 128, holds (Char.ofNat code))
    (small : c.toNat < 128) : holds c := by
  have found := each c.toNat small
  rwa [Char.ofNat_toNat] at found

theorem isAsciiWord_spec (word : isAsciiWord c = true) : isWordChar c = true ∧ isBlank c = false :=
  of_ascii (fun c => isAsciiWord c = true → isWordChar c = true ∧ isBlank c = false) (by decide)
    (isAsciiWord_code word) word

theorem isAsciiWord_of_start (start : (isAsciiLetter c || c == '_') = true) :
    isAsciiWord c = true := by
  rw [isAsciiWord, Bool.or_right_comm, start, Bool.true_or]

theorem isAsciiWord_of_isAsciiDigit (digit : isAsciiDigit c = true) : isAsciiWord c = true := by
  rw [isAsciiWord, digit, Bool.or_true, Bool.true_or]

theorem not_digit_of_start (start : (isAsciiLetter c || c == '_') = true) :
    isAsciiDigit c = false :=
  of_ascii (fun c => (isAsciiLetter c || c == '_') = true → isAsciiDigit c = false) (by decide)
    (isAsciiWord_code (isAsciiWord_of_start start)) start

theorem isWordChar_of_start (start : (isAlphabetic c || c == '_') = true) :
    isWordChar c = true ∧ isAsciiDigit c = false := by
  constructor
  · rw [isWordChar, Bool.or_right_comm, start, Bool.true_or]
  · refine Bool.eq_false_iff.mpr fun digit => ?_
    have other := of_ascii (fun c => isAsciiDigit c = true → (isAlphabetic c || c == '_') = false)
      (by decide) (isAsciiWord_code (isAsciiWord_of_isAsciiDigit digit)) digit
    rw [start] at other
    contradiction

/-- What is known of the name of a member. -/
structure Letters (text : List Char) : Prop where
  nonempty : text ≠ []
  letters : ∀ c ∈ text, isWordChar c = true

namespace Letters

variable {text : List Char}

theorem not_blank (word : Letters text) : ∀ c ∈ text, isBlank c = false := by
  intro c member
  refine Bool.eq_false_iff.mpr fun blank => ?_
  have letter := word.letters c member
  rw [isWordChar_of_isBlank blank] at letter
  contradiction

theorem shown (word : Letters text) : Shown text :=
  .of_all word.nonempty word.not_blank

theorem passable (word : Letters text) (level : Level) : Passable level text :=
  .of_quiet fun c member => by rw [Level.isQuiet.eq_def, word.letters c member]; rfl

theorem takeWhile (word : Letters text) (ends : ∀ c ∈ rest.head?, isWordChar c = false) :
    leadingWord (text ++ rest) = text :=
  (span_append word.letters ends).1

theorem dropWhile (word : Letters text) (ends : ∀ c ∈ rest.head?, isWordChar c = false) :
    (text ++ rest).dropWhile isWordChar = rest :=
  (span_append word.letters ends).2

end Letters

theorem letters_of_isIdentifier {text : List Char} (isName : isIdentifier text = true) :
    Letters text := by
  cases text with
  | nil => contradiction
  | cons first rest =>
    rw [isIdentifier, Bool.and_eq_true] at isName
    exact ⟨by simp, List.forall_mem_cons.mpr
      ⟨(isWordChar_of_start isName.1).1, List.all_eq_true.mp isName.2⟩⟩

theorem isIdentifier_first {text : List Char} (isName : isIdentifier text = true) :
    ∀ c ∈ text.head?, (isAlphabetic c || c == '_') = true := by
  cases text with
  | nil => contradiction
  | cons first rest =>
    rw [isIdentifier, Bool.and_eq_true] at isName
    exact forall_head_cons isName.1 rest

/-- What is known of an ASCII name. -/
structure Word (text : List Char) : Prop extends Letters text where
  word : ∀ c ∈ text, isAsciiWord c = true
  first : ∀ c ∈ text.head?, (isAsciiLetter c || c == '_') = true

theorem word_of_isAsciiName (isName : isAsciiName name = true) : Word name.toList := by
  unfold isAsciiName at isName
  rcases same : name.toList with _ | ⟨first, rest⟩
  · rw [same] at isName
    contradiction
  · rw [same, Bool.and_eq_true] at isName
    obtain ⟨start, others⟩ := isName
    have word : ∀ c ∈ first :: rest, isAsciiWord c = true :=
      List.forall_mem_cons.mpr ⟨isAsciiWord_of_start start, List.all_eq_true.mp others⟩
    exact ⟨⟨by simp, fun c member => (isAsciiWord_spec (word c member)).1⟩, word,
      forall_head_cons start rest⟩

theorem Word.isIdentifier {text : List Char} (word : Word text) : isIdentifier text = true := by
  obtain ⟨first, rest, rfl⟩ := List.exists_cons_of_ne_nil word.nonempty
  have all : rest.all isWordChar = true :=
    List.all_eq_true.mpr fun c member => word.letters c (.tail first member)
  have start := word.first first rfl
  rw [Text.isIdentifier, all, Bool.and_true, isAlphabetic,
    if_pos (isAsciiWord_code (word.word first List.mem_cons_self)), start]

theorem word_of_isFreeName (isFree : isFreeName name = true) : Word name.toList := by
  rw [isFreeName, Bool.and_eq_true, Bool.and_eq_true] at isFree
  exact word_of_isAsciiName isFree.1.1

theorem isReserved_of_isFreeName (isFree : isFreeName name = true) : isReserved name = false := by
  rw [isFreeName, Bool.and_eq_true, Bool.and_eq_true, Bool.not_eq_true'] at isFree
  rw [isReserved, isFree.2, Bool.or_false, Option.isSome_eq_false_iff]
  exact isFree.1.2

/-! ### Printable expressions can be read back -/

theorem tokensPrintable_cons (token second : Token) (rest : List Token) :
    tokensPrintable (token :: second :: rest) =
      (!(token.isValue && second.isValue) && token.isPrintable &&
        tokensPrintable (second :: rest)) := by
  rw [tokensPrintable]
  · rfl
  · simp

theorem tokensSpellable_cons (token second : Token) (rest : List Token) :
    tokensSpellable (token :: second :: rest) =
      (!(token.isValue && second.isValue) && token.isSpellable &&
        tokensSpellable (second :: rest)) := by
  rw [tokensSpellable]
  · rfl
  · simp

theorem letters_of_stepsSpellable {rest : List Step}
    (spellable : stepsSpellable (.property name :: rest) = true) :
    Letters name.toList ∧ stepsSpellable rest = true := by
  rw [stepsSpellable, Bool.and_eq_true, Bool.and_eq_true] at spellable
  obtain ⟨⟨present, letters⟩, others⟩ := spellable
  exact ⟨⟨by simpa using present, List.all_eq_true.mp letters⟩, others⟩

mutual

theorem Token.spellable {token : Token} (printable : token.isPrintable = true) :
    token.isSpellable = true := by
  cases token with
  | number _ | text _ | bool _ | null | operator _ | object _ | array _ | lambda _ _ =>
    exact printable
  | access base steps =>
    rw [Token.isPrintable, Bool.and_eq_true] at printable
    rw [Token.isSpellable, (word_of_isFreeName printable.1).isIdentifier,
      isReserved_of_isFreeName printable.1, steps_spellable printable.2, Bool.and_false]
    rfl
  | group tokens => exact tokens_spellable printable
  | call base steps arguments =>
    rw [Token.isPrintable, Bool.and_eq_true, Bool.and_eq_true] at printable
    rw [Token.isSpellable, (word_of_isFreeName printable.1.1).isIdentifier,
      steps_spellable printable.1.2, arguments_spellable printable.2]
    rfl
  | await operand =>
    rw [Token.isPrintable, Bool.and_eq_true] at printable
    rw [Token.isSpellable, printable.1, operand.spellable printable.2]
    rfl

theorem tokens_spellable {tokens : List Token} (printable : tokensPrintable tokens = true) :
    tokensSpellable tokens = true := by
  cases tokens with
  | nil => exact printable
  | cons token rest =>
    cases rest with
    | nil =>
      rw [tokensPrintable, Bool.and_eq_true] at printable
      rw [tokensSpellable, printable.1, token.spellable printable.2]
      rfl
    | cons second rest =>
      rw [tokensPrintable_cons, Bool.and_eq_true, Bool.and_eq_true] at printable
      rw [tokensSpellable_cons, printable.1.1, token.spellable printable.1.2,
        tokens_spellable printable.2]
      rfl

theorem steps_spellable {steps : List Step} (printable : stepsPrintable steps = true) :
    stepsSpellable steps = true := by
  cases steps with
  | nil => rfl
  | cons step rest =>
    cases step with
    | property name =>
      rw [stepsPrintable, Bool.and_eq_true] at printable
      have word := word_of_isFreeName printable.1
      rw [stepsSpellable, steps_spellable printable.2, List.all_eq_true.mpr word.letters,
        List.isEmpty_eq_false_iff.mpr word.nonempty]
      rfl
    | index tokens =>
      rw [stepsPrintable, Bool.and_eq_true] at printable
      rw [stepsSpellable, tokens_spellable printable.1, steps_spellable printable.2]
      rfl

theorem arguments_spellable {arguments : List (List Token)}
    (printable : argumentsPrintable arguments = true) : argumentsSpellable arguments = true := by
  cases arguments with
  | nil => rfl
  | cons argument rest =>
    rw [argumentsPrintable, Bool.and_eq_true] at printable
    rw [argumentsSpellable, tokens_spellable printable.1, arguments_spellable printable.2]
    rfl

end

/-! ### Numbers -/

/-- The text of a number. -/
structure NumberText (text : List Char) : Prop where
  parts : ∃ negative first rest, text = Number.signed negative (first :: rest) ∧
    isAsciiDigit first = true ∧ ∀ c ∈ rest, (isAsciiDigit c || c == '.') = true

theorem digits_of_parts {text : List Char} {parts : Nat × Int}
    (read : Decimal.parts? text = some parts) :
    ∀ c ∈ text, (isAsciiDigit c || c == '.') = true := by
  have front : ∀ c ∈ text.takeWhile isAsciiDigit, isAsciiDigit c = true :=
    fun c member => List.mem_takeWhile_imp member
  have back : ∀ c ∈ text.dropWhile isAsciiDigit, (isAsciiDigit c || c == '.') = true := by
    intro c member
    simp only [Decimal.parts?] at read
    split at read
    · contradiction
    · rename_i fraction found
      split at found
      · rename_i empty
        rw [empty] at member
        contradiction
      · rename_i digits point
        rw [point] at member
        rcases List.mem_cons.mp member with rfl | inFraction
        · rfl
        · split at found
          · rename_i all
            rw [List.all_eq_true.mp all c inFraction, Bool.true_or]
          · contradiction
      · contradiction
  intro c member
  rw [← List.takeWhile_append_dropWhile (p := isAsciiDigit) (l := text)] at member
  rcases List.mem_append.mp member with inFront | inBack
  · rw [front c inFront, Bool.true_or]
  · exact back c inBack

theorem ofPlain_signed {first : Char} (digit : isAsciiDigit first = true) (negative : Bool)
    (rest : List Char) :
    Decimal.ofPlain? (Number.signed negative (first :: rest)) =
      (Decimal.parts? (first :: rest)).map fun parts =>
        Binary64.ofDecimal negative parts.1 parts.2 := by
  cases negative with
  | true => rfl
  | false =>
    have noSign : first ≠ '-' := by
      rintro rfl
      contradiction
    show Decimal.ofPlain? (first :: rest) = _
    unfold Decimal.ofPlain?
    split
    rename_i negative digits same
    split at same
    · rename_i minus
      exact absurd (List.cons.inj minus).1 noSign
    · obtain ⟨rfl, rfl⟩ := Prod.mk.inj same
      rfl

theorem numberText {value : Binary64}
    (spellable : (Token.number value).isSpellable = true) :
    NumberText (Number.literalStyle.write value) := by
  rw [Token.isSpellable, beq_iff_eq] at spellable
  cases value with
  | finite negative mantissa exponent =>
    have numeral := Number.literalStyle.magnitude_numeral mantissa exponent
    obtain ⟨whole, fraction, power, ⟨digits, -⟩, -, -, same⟩ := numeral.parts
    obtain ⟨first, rest, rfl⟩ := List.exists_cons_of_ne_nil digits.nonempty
    have digit := digits.digits first (.head rest)
    rw [Number.Style.write, same] at spellable ⊢
    obtain ⟨parts, read, -⟩ := Option.map_eq_some_iff.mp ((ofPlain_signed digit _ _).symm.trans
      spellable)
    exact ⟨negative, first, _, rfl, digit, fun c member => digits_of_parts read c (.tail _ member)⟩
  | infinite negative =>
    cases negative <;> contradiction
  | undefined => contradiction

namespace NumberText

variable {text : List Char}

theorem shown (isNumber : NumberText text) : Shown text := by
  obtain ⟨negative, first, rest, rfl, digit, others⟩ := isNumber.parts
  have each : ∀ c ∈ '-' :: first :: rest, isBlank c = false := by
    refine List.forall_mem_cons.mpr ⟨rfl, List.forall_mem_cons.mpr ⟨?_, fun c member => ?_⟩⟩
    · exact (isAsciiWord_spec (isAsciiWord_of_isAsciiDigit digit)).2
    · rcases Bool.or_eq_true_iff.mp (others c member) with digit | point
      · exact (isAsciiWord_spec (isAsciiWord_of_isAsciiDigit digit)).2
      · rw [eq_of_beq point]
        rfl
  cases negative with
  | true => exact .of_all (by simp [Number.signed]) each
  | false => exact .of_all (by simp [Number.signed]) fun c member => each c (.tail _ member)

theorem passable (isNumber : NumberText text) (level : Level) : Passable level text := by
  obtain ⟨negative, first, rest, rfl, digit, others⟩ := isNumber.parts
  have unsigned : Passable level (first :: rest) := by
    refine .of_quiet (List.forall_mem_cons.mpr ⟨?_, fun c member => ?_⟩)
    · rw [Level.isQuiet.eq_def, (isAsciiWord_spec (isAsciiWord_of_isAsciiDigit digit)).1]
      rfl
    · rcases Bool.or_eq_true_iff.mp (others c member) with digit | point
      · rw [Level.isQuiet.eq_def, (isAsciiWord_spec (isAsciiWord_of_isAsciiDigit digit)).1]
        rfl
      · rw [eq_of_beq point]
        rfl
  cases negative with
  | true =>
    have each : ∀ c ∈ joiners, isAsciiDigit c = false := by decide
    have apart : first ∉ joiners := fun joins => by
      rw [each first joins] at digit
      contradiction
    exact .sign (by decide) apart unsigned
  | false => exact unsigned

end NumberText

/-! ### Operators and strings -/

theorem passable_operator {level : Level} {op : Operator}
    (allowed : op.isAssignment = true → level = .block) (others : Passable level (' ' :: rest)) :
    Passable level (op.spelling.toList ++ ' ' :: rest) := by
  cases op with
  | assign =>
    obtain rfl := allowed rfl
    exact .quiet rfl others
  | less | greater | add | sub | mul | div | mod | not => exact .sign (by decide) (by decide) others
  | _ => exact .pair (by decide) allowed others

theorem shown_operator (op : Operator) : Shown op.spelling.toList := by
  refine .of_all ?_ ?_
  · cases op <;> decide
  · cases op <;> decide

theorem LiteralBody.append (first : LiteralBody front) (second : LiteralBody back) :
    LiteralBody (front ++ back) := by
  induction first with
  | nil => exact second
  | plain noQuote noEscape _ ih => exact .plain noQuote noEscape ih
  | escaped c _ ih => exact .escaped c ih

theorem literalBody_printed (text : List Char) : LiteralBody (text.flatMap printChar) := by
  induction text with
  | nil => exact .nil
  | cons c rest ih =>
    rw [List.flatMap_cons]
    refine LiteralBody.append ?_ ih
    unfold printChar
    split
    · exact .escaped c .nil
    · rename_i plain
      simp only [Bool.or_eq_true, decide_eq_true_eq, not_or] at plain
      exact .plain plain.1 plain.2 .nil

theorem passable_quoted (level : Level) {body : List Char} (isBody : LiteralBody body) :
    Passable level (printQuoted body) :=
  .literal isBody (.nil level)

theorem shown_quoted (body : List Char) : Shown (printQuoted body) :=
  Shown.join (.of_all (by simp) (by decide : ∀ c ∈ ['"'], isBlank c = false))
    (.of_all (by simp) (by decide : ∀ c ∈ ['"'], isBlank c = false)) body

/-! ### Printed expressions are passable -/

theorem printTokens_cons (token second : Token) (rest : List Token) :
    printTokens (token :: second :: rest) = token.print ++ ' ' :: printTokens (second :: rest) := by
  rw [printTokens]
  simp

theorem printArguments_cons (argument second : List Token) (rest : List (List Token)) :
    printArguments (argument :: second :: rest) =
      printTokens argument ++ ',' :: ' ' :: printArguments (second :: rest) := by
  rw [printArguments]
  simp

mutual

theorem Token.passable : ∀ {token : Token}, token.isSpellable = true → token.isValue = true →
    Passable .value token.print
  | .number value, spellable, _ => (numberText spellable).passable .value
  | .text value, _, _ => passable_quoted .value (literalBody_printed value.toList)
  | .bool true, _, _ | .bool false, _, _ | .null, _, _ => .of_quiet (by decide)
  | .access base steps, spellable, _ => by
    rw [Token.isSpellable, Bool.and_eq_true, Bool.and_eq_true] at spellable
    exact ((letters_of_isIdentifier spellable.1.1).passable .value).append
      (steps_passable spellable.2)
  | .operator _, _, isValue => nomatch isValue
  | .group tokens, spellable, _ => by
    exact .group (by decide) (tokens_passable spellable).to_list (.nil .value)
  | .call base steps arguments, spellable, _ => by
    rw [Token.isSpellable, Bool.and_eq_true, Bool.and_eq_true] at spellable
    obtain ⟨⟨isName, stepsSpellable⟩, argumentsSpellable⟩ := spellable
    have callee := ((letters_of_isIdentifier isName).passable .value).append
      (steps_passable stepsSpellable)
    exact callee.append (.group (by decide) (arguments_passable argumentsSpellable) (.nil .value))
  | .await operand, spellable, _ => by
    rw [Token.isSpellable, Bool.and_eq_true, Bool.and_eq_true] at spellable
    obtain ⟨⟨isValue, -⟩, spellable⟩ := spellable
    have word : Passable .value "await ".toList := .of_quiet (by decide)
    exact word.append (Token.passable spellable isValue)
  | .object _, spellable, _ | .array _, spellable, _ | .lambda _ _, spellable, _ => by
    contradiction

theorem tokens_passable : ∀ {tokens : List Token}, tokensSpellable tokens = true →
    Passable .value (printTokens tokens)
  | [], spellable => by
    contradiction
  | [token], spellable => by
    rw [tokensSpellable, Bool.and_eq_true] at spellable
    exact Token.passable spellable.2 spellable.1
  | token :: second :: rest, spellable => by
    rw [tokensSpellable_cons, Bool.and_eq_true, Bool.and_eq_true] at spellable
    obtain ⟨⟨-, first⟩, others⟩ := spellable
    have behind : Passable .value (' ' :: printTokens (second :: rest)) :=
      .quiet rfl (tokens_passable others)
    rw [printTokens_cons]
    cases isValue : token.isValue with
    | true => exact (Token.passable first isValue).append behind
    | false =>
      cases token with
      | operator op =>
        rw [Token.isSpellable] at first
        refine passable_operator (fun isAssignment => ?_) behind
        rw [isAssignment] at first
        contradiction
      | _ => contradiction

theorem steps_passable : ∀ {steps : List Step}, stepsSpellable steps = true →
    Passable .value (printSteps steps)
  | [], _ => .nil .value
  | .property name :: rest, spellable => by
    obtain ⟨letters, others⟩ := letters_of_stepsSpellable spellable
    exact .quiet rfl ((letters.passable .value).append (steps_passable others))
  | .index tokens :: rest, spellable => by
    rw [stepsSpellable, Bool.and_eq_true] at spellable
    exact .group (by decide) (tokens_passable spellable.1).to_list (steps_passable spellable.2)

theorem arguments_passable : ∀ {arguments : List (List Token)},
    argumentsSpellable arguments = true → Passable .list (printArguments arguments)
  | [], _ => .nil .list
  | [argument], spellable => by
    rw [argumentsSpellable, Bool.and_eq_true] at spellable
    exact (tokens_passable spellable.1).to_list
  | argument :: second :: rest, spellable => by
    rw [argumentsSpellable, Bool.and_eq_true] at spellable
    rw [printArguments_cons]
    exact (tokens_passable spellable.1).to_list.append
      (.quiet rfl (.quiet rfl (arguments_passable spellable.2)))

end

/-! ### Printed expressions have no blanks at their ends -/

theorem steps_shown (shown : Shown front) {steps : List Step}
    (spellable : stepsSpellable steps = true) : Shown (front ++ printSteps steps) := by
  induction steps generalizing front with
  | nil => rwa [printSteps, List.append_nil]
  | cons step rest ih =>
    cases step with
    | property name =>
      obtain ⟨letters, others⟩ := letters_of_stepsSpellable spellable
      have longer := ih (shown.join letters.shown ['.']) others
      rwa [List.append_assoc, List.append_assoc] at longer
    | index tokens =>
      rw [stepsSpellable, Bool.and_eq_true] at spellable
      have bracket : Shown [']'] := .of_all (by simp) (by decide)
      have longer := ih (shown.join bracket ('[' :: printTokens tokens)) spellable.2
      rwa [List.append_assoc, List.append_assoc] at longer

theorem Token.shown : ∀ {token : Token}, token.isSpellable = true → Shown token.print
  | .number value, spellable => (numberText spellable).shown
  | .text value, _ => shown_quoted _
  | .bool true, _ | .bool false, _ | .null, _ => .of_all (by decide) (by decide)
  | .access base steps, spellable => by
    rw [Token.isSpellable, Bool.and_eq_true, Bool.and_eq_true] at spellable
    exact steps_shown (letters_of_isIdentifier spellable.1.1).shown spellable.2
  | .operator op, _ => shown_operator op
  | .group tokens, _ => by
    have opener : Shown ['('] := .of_all (by simp) (by decide)
    exact opener.join (.of_all (by simp) (by decide : ∀ c ∈ [')'], isBlank c = false)) _
  | .call base steps arguments, spellable => by
    rw [Token.isSpellable, Bool.and_eq_true, Bool.and_eq_true] at spellable
    have callee := steps_shown (letters_of_isIdentifier spellable.1.1).shown spellable.1.2
    have closer : Shown [')'] := .of_all (by simp) (by decide)
    exact callee.join closer ('(' :: printArguments arguments)
  | .await operand, spellable => by
    rw [Token.isSpellable, Bool.and_eq_true] at spellable
    have word : Shown "await".toList := .of_all (by decide) (by decide)
    exact word.join (Token.shown spellable.2) [' ']
  | .object _, spellable | .array _, spellable | .lambda _ _, spellable => by
    contradiction

theorem tokens_shown {tokens : List Token} (spellable : tokensSpellable tokens = true) :
    Shown (printTokens tokens) := by
  induction tokens with
  | nil =>
    contradiction
  | cons token rest ih =>
    cases rest with
    | nil =>
      rw [tokensSpellable, Bool.and_eq_true] at spellable
      exact Token.shown spellable.2
    | cons second rest =>
      rw [tokensSpellable_cons, Bool.and_eq_true, Bool.and_eq_true] at spellable
      rw [printTokens_cons]
      exact (Token.shown spellable.1.2).join (ih spellable.2) [' ']

/-! ### Lists with commas -/

theorem foldr_consPiece (text piece : List Char) (others : List (List Char)) :
    text.foldr consPiece (piece :: others) = (text ++ piece) :: others := by
  induction text with
  | nil => rfl
  | cons c rest ih => rw [List.foldr_cons, ih]; rfl

theorem trim_blank (text : List Char) : trim (' ' :: text) = trim text := rfl

def Uncut (brackets : Brackets) (text : List Char) : Prop :=
  ∀ rest, pieces brackets .outside 0 (text ++ rest) =
    text.foldr consPiece (pieces brackets .outside 0 rest)

theorem Uncut.append (first : Uncut brackets front) (second : Uncut brackets back) :
    Uncut brackets (front ++ back) := by
  intro rest
  rw [List.append_assoc, first, second, List.foldr_append]

theorem pieces_intercalate (uncut : ∀ text ∈ texts, Uncut brackets text) (present : texts ≠ []) :
    pieces brackets .outside 0 ([','].intercalate texts) = texts := by
  induction texts with
  | nil => contradiction
  | cons text others ih =>
    have first := uncut text List.mem_cons_self
    by_cases last : others = []
    · have ends : pieces brackets .outside 0 [] = [[]] := rfl
      rw [last, List.intercalate_singleton, ← List.append_nil text, first, ends, foldr_consPiece]
    · have comma (rest : List Char) : pieces brackets .outside 0 (',' :: rest) =
          [] :: pieces brackets .outside 0 rest := rfl
      rw [List.intercalate_cons_of_ne_nil last, List.append_assoc, List.singleton_append, first,
        comma, foldr_consPiece, List.append_nil,
        ih (fun other member => uncut other (.tail _ member)) last]

/-- **Texts with commas between them** are found again, without the blanks around them. -/
theorem trimmedPieces_intercalate (uncut : ∀ text ∈ texts, Uncut brackets text)
    (shown : ∀ text ∈ texts, trim text ≠ []) :
    trimmedPieces brackets ([','].intercalate texts) = texts.map trim := by
  rw [trimmedPieces_eq]
  by_cases empty : texts = []
  · subst empty
    rfl
  · have last : (texts.map trim).getLast? ≠ some [] := fun last => by
      obtain ⟨text, member, hidden⟩ := List.mem_map.mp (List.mem_of_getLast? last)
      exact shown text member hidden
    rw [pieces_intercalate uncut empty]
    exact if_neg last

theorem intercalate_blank (text : List Char) (others : List (List Char)) :
    [',', ' '].intercalate (text :: others) = [','].intercalate (text :: others.map (' ' :: ·)) := by
  induction others generalizing text with
  | nil => rfl
  | cons second others ih =>
    have blank := intercalate_consPiece ' ' (List.cons_ne_nil second (others.map (' ' :: ·)))
    rw [consPiece] at blank
    rw [List.intercalate_cons_cons, ih, List.map_cons, List.intercalate_cons_cons, blank]
    simp

/-- **Texts joined by commas are found again.** -/
theorem trimmedPieces_joined (quiet : brackets.change ' ' = 0)
    (uncut : ∀ text ∈ texts, Uncut brackets text) (shown : ∀ text ∈ texts, Shown text) :
    trimmedPieces brackets ([',', ' '].intercalate texts) = texts := by
  have blank : Uncut brackets [' '] :=
    pieces_plain quiet (fun _ => by decide) (.inl (by decide))
  cases texts with
  | nil => rfl
  | cons text others =>
    obtain ⟨first, later⟩ := List.forall_mem_cons.mp shown
    have trimmed : (others.map (' ' :: ·)).map trim = others := by
      rw [List.map_map]
      exact (List.map_congr_left fun other member =>
        (trim_blank other).trans (later other member).trim).trans (List.map_id others)
    rw [intercalate_blank, trimmedPieces_intercalate, List.map_cons, first.trim, trimmed]
    · exact List.forall_mem_cons.mpr ⟨uncut text List.mem_cons_self, List.forall_mem_map.mpr
        fun other member => blank.append (uncut other (.tail _ member))⟩
    · refine List.forall_mem_cons.mpr ⟨by rw [first.trim]; exact first.nonempty,
        List.forall_mem_map.mpr fun other member => ?_⟩
      rw [trim_blank, (later other member).trim]
      exact (later other member).nonempty

theorem printArguments_eq (arguments : List (List Token)) :
    printArguments arguments = [',', ' '].intercalate (arguments.map printTokens) := by
  induction arguments with
  | nil => rfl
  | cons argument rest ih =>
    cases rest with
    | nil => simp [printArguments, List.intercalate]
    | cons second rest =>
      rw [printArguments_cons, ih]
      simp [List.intercalate]

theorem forall_argumentsSpellable (spellable : argumentsSpellable arguments = true) :
    ∀ argument ∈ arguments, tokensSpellable argument = true := by
  induction arguments with
  | nil => simp
  | cons argument rest ih =>
    rw [argumentsSpellable, Bool.and_eq_true] at spellable
    exact List.forall_mem_cons.mpr ⟨spellable.1, ih spellable.2⟩

theorem splitArguments_printed (spellable : argumentsSpellable arguments = true) :
    splitArguments (printArguments arguments) = arguments.map printTokens := by
  have each := forall_argumentsSpellable spellable
  rw [printArguments_eq]
  refine trimmedPieces_joined (by decide) (List.forall_mem_map.mpr fun argument member rest => ?_)
    (List.forall_mem_map.mpr fun argument member => tokens_shown (each argument member))
  exact argumentPass.passes (tokens_passable (each argument member)) ⟨Int.le_refl 0, .inl rfl⟩ rest

end TypedScript
