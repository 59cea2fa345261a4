/-
**Reading written values.** The compact text of a value denotes that value again, if its numbers are
whole and fit 64 bits, its objects are sorted by key, and it is not nested too deep.

Every lemma is about a text in front of a rest that may follow a value: one that starts with a comma
or a closing bracket, or is empty.
-/

import Mathlib.Tactic.IntervalCases
import TypedScript.Json.Reader
import TypedScript.Proofs.Number.Numerals
import TypedScript.Proofs.Text.Trimming

namespace TypedScript.Json

open Text

variable {digits : List Char} {number fuel : Nat} {value : Json} {items : List Json}
  {fields : List (String × Json)} {c last : Char} {rest : List Char} {α : Type}

/-! ### Values that can be read back -/

mutual

/-- How deep lists and objects are nested. -/
def depth : Json → Nat
  | .array items => itemsDepth items + 1
  | .object fields => fieldsDepth fields + 1
  | _ => 0

def itemsDepth : List Json → Nat
  | [] => 0
  | item :: rest => max item.depth (itemsDepth rest)

def fieldsDepth : List (String × Json) → Nat
  | [] => 0
  | (_, value) :: rest => max value.depth (fieldsDepth rest)

end

/-- Whether fields are sorted by key, each key once. -/
def areSorted (fields : List (String × Json)) : Bool :=
  decide ((fields.map Prod.fst).Pairwise (· < ·))

mutual

/-- Whether all numbers of a value are whole and fit 64 bits, and all its objects are sorted. -/
def isExact : Json → Bool
  | .int value => -(maxNegative : Int) ≤ value && value ≤ maxSignificand
  | .float _ => false
  | .array items => itemsExact items
  | .object fields => areSorted fields && fieldsExact fields
  | _ => true

def itemsExact : List Json → Bool
  | [] => true
  | item :: rest => item.isExact && itemsExact rest

def fieldsExact : List (String × Json) → Bool
  | [] => true
  | (_, value) :: rest => value.isExact && fieldsExact rest

end

/-! ### Texts in front of a rest -/

/-- Whether a text may follow a value. -/
def Follows (rest : List Char) : Prop :=
  ∀ c ∈ rest.head?, c ∈ [',', ']', '\x7d']

theorem follows_cons (isEnd : c ∈ [',', ']', '\x7d']) : Follows (c :: rest) :=
  forall_head_cons isEnd rest

/-- A reader takes a text off the input and gives a value. -/
def Reads {α : Type} (reader : Reader α) (text : List Char) (value : α) : Prop :=
  ∀ rest bytes, Follows rest → ∃ after, reader ⟨text ++ rest, bytes⟩ = .ok (value, ⟨rest, after⟩)

theorem skipSpace_cons (shown : Input.isSpace c = false) (rest : List Char) (bytes : Nat) :
    Input.skipSpace ⟨c :: rest, bytes⟩ = ⟨c :: rest, bytes⟩ := by
  simp [Input.skipSpace, Input.drop, shown]

theorem drop_one (c : Char) (rest : List Char) (bytes : Nat) :
    Input.drop ⟨c :: rest, bytes⟩ 1 = ⟨rest, bytes + 1⟩ := rfl

theorem bind_ok {β : Type} (value : α) (next : α → Except Fault β) :
    (Except.ok value >>= next) = next value := rfl

/-! ### Strings -/

theorem escapedChar_plain (quote : c ≠ '"') (backslash : c ≠ '\\') (control : ¬ c.toNat < 32) :
    escapedChar c = [c] := by
  have others : ∀ d ∈ ['\n', '\r', '\t', '\x08', '\x0c'], c ≠ d := by
    rintro d member rfl
    have each : ∀ d ∈ ['\n', '\r', '\t', '\x08', '\x0c'], d.toNat < 32 := by simp
    exact control (each _ member)
  simp only [List.mem_cons, List.not_mem_nil, or_false, forall_eq_or_imp, forall_eq] at others
  have shown : ¬ c.toNat < 16 := fun small => control (by omega)
  simp [escapedChar, quote, backslash, others, control, shown]

theorem escapedChar_cases (c : Char) :
    (escapedChar c = [c] ∧ c ≠ '"' ∧ c ≠ '\\' ∧ ¬ c.toNat < 32) ∨
      ∃ letter digits, escapedChar c = '\\' :: letter :: digits ∧
        (digits.all fun d => d != '"' && d != '\\') = true ∧
        (letter :: digits).contains '_' = false ∧
        ∀ more bytes, escape (letter :: digits ++ more) bytes = .ok (c, digits.length + 1) := by
  by_cases quote : c = '"'
  · subst quote
    exact .inr ⟨'"', [], rfl, rfl, rfl, fun _ _ => rfl⟩
  by_cases backslash : c = '\\'
  · subst backslash
    exact .inr ⟨'\\', [], rfl, rfl, rfl, fun _ _ => rfl⟩
  by_cases control : c.toNat < 32
  · obtain ⟨code, same⟩ : ∃ code, code = c.toNat := ⟨_, rfl⟩
    obtain rfl : Char.ofNat code = c := by rw [same, Char.ofNat_toNat]
    rw [← same] at control
    clear quote backslash same
    right
    interval_cases code <;> exact ⟨_, _, rfl, rfl, rfl, fun _ _ => rfl⟩
  · exact .inl ⟨escapedChar_plain quote backslash control, quote, backslash, control⟩

theorem readTextFrom_skip (letters more : List Char) (bytes : Nat) :
    readTextFrom letters.length (letters ++ more) bytes =
      readTextFrom 0 more (bytes + letters.length) := by
  induction letters generalizing bytes with
  | nil => rfl
  | cons letter letters ih =>
    show readTextFrom letters.length (letters ++ more) (bytes + 1) = _
    rw [ih, List.length_cons, Nat.add_assoc, Nat.add_comm 1]

theorem readTextFrom_written (text rest : List Char) (bytes : Nat) :
    ∃ after, readTextFrom 0 (text.flatMap escapedChar ++ '"' :: rest) bytes =
      .ok (text, ⟨rest, after⟩) := by
  induction text generalizing bytes with
  | nil => exact ⟨bytes + 1, rfl⟩
  | cons c text ih =>
    rw [List.flatMap_cons, List.append_assoc]
    rcases escapedChar_cases c with
      ⟨written, quote, backslash, shown⟩ | ⟨letter, digits, written, -, -, denotes⟩
    · obtain ⟨after, others⟩ := ih (bytes + c.utf8Size)
      refine ⟨after, ?_⟩
      rw [written, List.singleton_append, readTextFrom, if_neg quote, if_neg backslash,
        if_neg shown, others]
      rfl
    · obtain ⟨after, others⟩ := ih (bytes + 1 + (digits.length + 1))
      have skipped := readTextFrom_skip (letter :: digits)
      rw [List.length_cons] at skipped
      refine ⟨after, ?_⟩
      rw [written, List.cons_append, readTextFrom, if_neg (by decide), if_pos rfl, denotes]
      simp only [bind_ok, skipped, others]
      rfl

theorem toList_writeText (text : String) :
    (writeText text).toList = '"' :: (text.toList.flatMap escapedChar ++ ['"']) :=
  String.toList_ofList

theorem readText_written (text : String) (rest : List Char) (bytes : Nat) :
    ∃ after, readText ⟨text.toList.flatMap escapedChar ++ '"' :: rest, bytes⟩ =
      .ok (text, ⟨rest, after⟩) := by
  obtain ⟨after, read⟩ := readTextFrom_written text.toList rest bytes
  refine ⟨after, ?_⟩
  unfold readText
  rw [read]
  show Except.ok (String.ofList text.toList, _) = _
  rw [String.ofList_toList]

/-! ### Numbers -/

theorem le_ofDigitChars (digits : List Char) (start : Nat) :
    start ≤ Nat.ofDigitChars 10 digits start := by
  induction digits generalizing start with
  | nil => exact Nat.le_refl start
  | cons c rest ih =>
    rw [Nat.ofDigitChars_cons]
    exact Nat.le_trans (by omega) (ih _)

/-- Digits are counted as long as their number is not too large. -/
theorem takeDigits_eq (digits : List Char) (start : Nat)
    (small : Nat.ofDigitChars 10 digits start ≤ maxSignificand) :
    takeDigits start digits = (Nat.ofDigitChars 10 digits start, digits.length) := by
  induction digits generalizing start with
  | nil => rfl
  | cons c rest ih =>
    rw [Nat.ofDigitChars_cons, Nat.mul_comm] at small ⊢
    have fits : ¬ maxSignificand < start * 10 + (c.toNat - '0'.toNat) :=
      Nat.not_lt.mpr (Nat.le_trans (le_ofDigitChars rest _) small)
    simp only [takeDigits, if_neg fits, ih _ small, List.length_cons]

theorem readNumber_digits (whole : Number.Whole digits)
    (counted : takeDigits 0 digits = (number, digits.length)) (follows : Follows rest)
    (negative : Bool) (bytes : Nat) :
    readNumber negative ⟨digits ++ rest, bytes⟩ =
      .ok (ofWhole negative number, ⟨rest, bytes + digits.length⟩) := by
  have each : ∀ c ∈ [',', ']', '\x7d'], isAsciiDigit c = false := by simp [isAsciiDigit]
  have taken : leadingDigits ⟨digits ++ rest, bytes⟩ = digits :=
    (span_append whole.digits fun c head => each c (follows c head)).1
  have dropped : Input.drop ⟨digits ++ rest, bytes⟩ digits.length =
      ⟨rest, bytes + digits.length⟩ := by
    rw [Input.drop, List.drop_left]
  obtain ⟨c, more, rfl⟩ := List.exists_cons_of_ne_nil whole.nonempty
  have digit : isAsciiDigit c = true := whole.digits c List.mem_cons_self
  have found : (if c = '0' then ['0'] else leadingDigits ⟨c :: more ++ rest, bytes⟩) = c :: more := by
    split_ifs with zero
    · refine (whole.noLeadingZero.resolve_right fun other => other ?_).symm
      rw [zero]
      rfl
    · exact taken
  unfold readNumber
  simp only [List.cons_append] at found dropped ⊢
  simp only [digit, Bool.not_true, Bool.false_eq_true, if_false, found, counted, dropped]
  cases rest with
  | nil => simp
  | cons d rest =>
    have each : ∀ d ∈ [',', ']', '\x7d'], isAsciiDigit d = false ∧ d ≠ '.' ∧ d ≠ 'e' ∧ d ≠ 'E' := by
      simp [isAsciiDigit]
    obtain ⟨noDigit, noPoint, noMark, noCapital⟩ := each d (follows d rfl)
    simp [noDigit, noPoint, noMark, noCapital]

theorem takeDigits_toDigits (fits : number ≤ maxSignificand) :
    takeDigits 0 (Nat.toDigits 10 number) = (number, (Nat.toDigits 10 number).length) := by
  have same : Nat.ofDigitChars 10 (Nat.toDigits 10 number) 0 = number :=
    Nat.ofDigitChars_toDigits (by decide) (by decide)
  have counted := takeDigits_eq (Nat.toDigits 10 number) 0 (by rwa [same])
  rwa [same] at counted

/-! ### Values in brackets -/

theorem shown_of_digit (digit : isAsciiDigit c = true) : Input.isSpace c = false ∧ c ≠ ']' := by
  have each : ∀ c ∈ [' ', '\n', '\t', '\r', ']'], isAsciiDigit c = false := by simp [isAsciiDigit]
  have other : c ∉ [' ', '\n', '\t', '\r', ']'] := fun member => by
    rw [each c member] at digit
    contradiction
  simp only [List.mem_cons, List.not_mem_nil, or_false, not_or] at other
  simp [Input.isSpace, other]

theorem write_head (exact : value.isExact = true) :
    ∃ c more, value.write.toList = c :: more ∧ Input.isSpace c = false ∧ c ≠ ']' := by
  cases value with
  | null => exact ⟨'n', _, rfl, by decide⟩
  | bool value =>
    cases value with
    | true => exact ⟨'t', _, rfl, by decide⟩
    | false => exact ⟨'f', _, rfl, by decide⟩
  | int value =>
    rw [write, writeInt, String.toList_ofList, Number.signed]
    split_ifs
    · exact ⟨'-', _, rfl, by decide⟩
    · have digits := Number.digits_toDigits value.natAbs
      obtain ⟨c, more, same⟩ := List.exists_cons_of_ne_nil digits.nonempty
      exact ⟨c, more, same, shown_of_digit (digits.digits c (by rw [same]; exact .head more))⟩
  | float value => contradiction
  | text value => exact ⟨'"', _, toList_writeText value, by decide⟩
  | array items =>
    rw [write, String.toList_append, String.toList_append]
    exact ⟨'[', _, rfl, by decide⟩
  | object fields =>
    rw [write, String.toList_append, String.toList_append]
    exact ⟨'\x7b', _, rfl, by decide⟩

section Lists

variable {c : Char} (rest : List Char) (bytes : Nat)

theorem hasItem_end (first : Bool) :
    hasItem first ⟨']' :: rest, bytes⟩ = .ok (false, ⟨']' :: rest, bytes⟩) := by
  unfold hasItem
  rw [skipSpace_cons (by decide)]
  rfl

theorem hasItem_more (first : Bool) (shown : Input.isSpace c = false) (noEnd : c ≠ ']') :
    ∃ after, hasItem first ⟨(if first then [] else [',']) ++ c :: rest, bytes⟩ =
      .ok (true, ⟨c :: rest, after⟩) := by
  unfold hasItem
  cases first with
  | true => exact ⟨bytes, by simp [skipSpace_cons shown]⟩
  | false =>
    refine ⟨bytes + 1, ?_⟩
    rw [if_neg Bool.false_ne_true, List.singleton_append, skipSpace_cons (by decide)]
    simp [drop_one, skipSpace_cons shown]

theorem hasField_end (first : Bool) :
    hasField first ⟨'\x7d' :: rest, bytes⟩ = .ok (false, ⟨'\x7d' :: rest, bytes⟩) := by
  unfold hasField
  rw [skipSpace_cons (by decide)]
  rfl

theorem hasField_more (first : Bool) :
    ∃ after, hasField first ⟨(if first then [] else [',']) ++ '"' :: rest, bytes⟩ =
      .ok (true, ⟨'"' :: rest, after⟩) := by
  have shown : Input.isSpace '"' = false := by decide
  unfold hasField
  cases first with
  | true => exact ⟨bytes, by simp [skipSpace_cons shown]⟩
  | false =>
    refine ⟨bytes + 1, ?_⟩
    rw [if_neg Bool.false_ne_true, List.singleton_append, skipSpace_cons (by decide)]
    simp [drop_one, skipSpace_cons shown]

end Lists

/-- Parts in a row, with a comma in front of each that is not the first one. -/
def listed : Bool → List (List Char) → List Char
  | _, [] => []
  | first, part :: parts => (if first then [] else [',']) ++ (part ++ listed false parts)

theorem follows_listed (parts : List (List Char)) (isEnd : last ∈ [',', ']', '\x7d'])
    (rest : List Char) : Follows (listed false parts ++ last :: rest) := by
  cases parts with
  | nil => exact follows_cons isEnd
  | cons part parts => exact follows_cons (by decide)

/-- Readings need no more fuel than there are characters. -/
theorem length_listed (first : Bool) (parts : List (List Char)) :
    parts.length ≤ (listed first parts).length + first.toNat := by
  induction parts generalizing first with
  | nil => exact Nat.zero_le _
  | cons part parts ih =>
    have others := ih false
    rw [Bool.toNat_false] at others
    rw [listed, List.length_append, List.length_append, List.length_cons]
    cases first with
    | true => exact Nat.succ_le_succ (by omega)
    | false =>
      rw [if_neg Bool.false_ne_true, List.length_singleton]
      omega

def fieldChars (field : String × Json) : List Char :=
  (writeText field.1).toList ++ ':' :: field.2.write.toList

theorem intercalate_eq_listed (parts : List (List Char)) :
    [','].intercalate parts = listed true parts := by
  cases parts with
  | nil => rfl
  | cons part parts =>
    induction parts generalizing part with
    | nil => simp [listed]
    | cons next parts ih => simp [List.intercalate_cons_cons, ih, listed]

theorem toList_writeItems (items : List Json) :
    (writeItems items).toList = [','].intercalate (items.map fun item => item.write.toList) := by
  induction items with
  | nil => rfl
  | cons item rest ih =>
    cases rest with
    | nil => simp [writeItems]
    | cons next rest =>
      rw [writeItems, String.toList_append, String.toList_append, ih]
      · exact List.intercalate_cons_cons.symm
      · simp

theorem toList_writeFields (fields : List (String × Json)) :
    (writeFields fields).toList = [','].intercalate (fields.map fieldChars) := by
  induction fields with
  | nil => rfl
  | cons field rest ih =>
    cases rest with
    | nil => simp [writeFields, fieldChars]
    | cons next rest =>
      rw [writeFields, String.toList_append, ih]
      · simp [List.intercalate_cons_cons, fieldChars]
      · simp

/-- A loop reads one item, behind a comma if it is not the first one, and goes on behind it. -/
def Continues {α : Type} (loop : Nat → Bool → Reader (List α)) (chars : List Char) (item : α) :
    Prop :=
  ∀ fuel first rest bytes, Follows rest → ∃ between, ∀ others after,
    loop fuel false ⟨rest, between⟩ = .ok (others, after) →
      loop (fuel + 1) first ⟨(if first then [] else [',']) ++ (chars ++ rest), bytes⟩ =
        .ok (item :: others, after)

/-- **What is written in brackets is read** up to the closing one, item by item. -/
theorem reads_listed {loop : Nat → Bool → Reader (List α)} {chars : α → List Char} {list : List α}
    (isEnd : last ∈ [',', ']', '\x7d']) (rest : List Char)
    (ends : ∀ fuel first bytes,
      loop (fuel + 1) first ⟨last :: rest, bytes⟩ = .ok ([], ⟨last :: rest, bytes⟩))
    (continues : ∀ item ∈ list, Continues loop (chars item) item) (bytes : Nat) :
    let text := [','].intercalate (list.map chars) ++ last :: rest
    ∃ after, loop (text.length + 1) true ⟨text, bytes⟩ = .ok (list, ⟨last :: rest, after⟩) := by
  have each : ∀ fuel first bytes, list.length ≤ fuel → ∃ after, loop (fuel + 1) first
      ⟨listed first (list.map chars) ++ last :: rest, bytes⟩ =
        .ok (list, ⟨last :: rest, after⟩) := by
    induction list with
    | nil => exact fun fuel first bytes _ => ⟨bytes, ends fuel first bytes⟩
    | cons item list ih =>
      intro fuel first bytes enough
      obtain ⟨own, others⟩ := List.forall_mem_cons.mp continues
      obtain ⟨fuel, rfl⟩ := Nat.exists_eq_add_one_of_ne_zero (Nat.ne_zero_of_lt enough)
      obtain ⟨between, goesOn⟩ := own (fuel + 1) first _ bytes
        (follows_listed (list.map chars) isEnd rest)
      obtain ⟨after, read⟩ := ih others fuel false between (Nat.le_of_succ_le_succ enough)
      refine ⟨after, ?_⟩
      rw [List.map_cons, listed, List.append_assoc, List.append_assoc]
      exact goesOn _ _ read
  rw [intercalate_eq_listed]
  refine each _ true bytes ?_
  have length := length_listed true (list.map chars)
  rw [List.length_map, Bool.toNat_true] at length
  rw [List.length_append, List.length_cons]
  omega

theorem readItems_continues {reader : Reader Json} (exact : value.isExact = true)
    (reads : Reads reader value.write.toList value) :
    Continues (readItems reader) value.write.toList value := by
  intro fuel first rest bytes follows
  obtain ⟨c, more, written, shown, noEnd⟩ := write_head exact
  obtain ⟨start, starts⟩ := hasItem_more (more ++ rest) bytes first shown noEnd
  rw [← List.cons_append, ← written] at starts
  obtain ⟨between, read⟩ := reads _ start follows
  refine ⟨between, fun others after readOthers => ?_⟩
  rw [readItems, starts]
  simp only [bind_ok, if_true, read, readOthers]
  rfl

section Fields

variable {reader : Reader Json} {rest : List Char}

theorem readColon_cons (rest : List Char) (bytes : Nat) :
    readColon ⟨':' :: rest, bytes⟩ = .ok ⟨rest, bytes + 1⟩ := by
  unfold readColon
  rw [skipSpace_cons (by decide)]
  rfl

theorem fieldChars_append (field : String × Json) (rest : List Char) :
    fieldChars field ++ rest = '"' :: (field.1.toList.flatMap escapedChar ++
      '"' :: ':' :: (field.2.write.toList ++ rest)) := by
  rw [fieldChars, toList_writeText]
  simp

theorem readFields_continues {field : String × Json}
    (reads : Reads reader field.2.write.toList field.2) :
    Continues (readFields reader) (fieldChars field) field := by
  intro fuel first rest bytes follows
  obtain ⟨start, starts⟩ := hasField_more (field.1.toList.flatMap escapedChar ++
    '"' :: ':' :: (field.2.write.toList ++ rest)) bytes first
  obtain ⟨keyEnd, readKey⟩ := readText_written field.1 (':' :: (field.2.write.toList ++ rest))
    (start + 1)
  obtain ⟨between, readValue⟩ := reads _ (keyEnd + 1) follows
  refine ⟨between, fun others after readOthers => ?_⟩
  rw [fieldChars_append, readFields, starts]
  simp only [bind_ok, if_true, drop_one, readKey, readColon_cons, readValue, readOthers]
  rfl

theorem insertField_last {key : String} (value : Json) (last : ∀ field ∈ fields, field.1 < key) :
    insertField key value fields = fields ++ [(key, value)] := by
  induction fields with
  | nil => rfl
  | cons field fields ih =>
    obtain ⟨first, others⟩ := List.forall_mem_cons.mp last
    obtain ⟨other, existing⟩ := field
    have apart : key ≠ other := fun same => String.lt_irrefl _ (same ▸ first)
    rw [insertField, if_neg apart, if_neg (String.lt_asymm first), ih others]
    rfl

theorem foldl_insertField (sorted : areSorted fields = true) :
    fields.foldl (fun fields (key, value) => insertField key value fields) [] = fields := by
  have general : ∀ front : List (String × Json), areSorted (front ++ fields) = true →
      fields.foldl (fun fields (key, value) => insertField key value fields) front =
        front ++ fields := by
    clear sorted
    induction fields with
    | nil => exact fun front _ => (List.append_nil front).symm
    | cons field fields ih =>
      intro front sorted
      obtain ⟨key, value⟩ := field
      have last : ∀ earlier ∈ front, earlier.1 < key := by
        rw [areSorted, decide_eq_true_eq, List.map_append, List.pairwise_append] at sorted
        exact fun earlier member => sorted.2.2 earlier.1 (List.mem_map_of_mem member) key (.head _)
      have next := ih (front ++ [(key, value)]) (by rwa [List.append_assoc])
      rw [List.append_assoc] at next
      show fields.foldl _ (insertField key value front) = _
      rw [insertField_last value last]
      exact next
  exact general [] sorted

end Fields

/-! ### Values

`readValue` looks at its `room` in front of a bracket only: with the character ahead known, each
case of `room` computes.
-/

section Values

variable {room : Nat} {value : Int}

theorem reads_null : Reads (readValue room) "null".toList .null := by
  intro rest bytes _
  refine ⟨bytes + 4, ?_⟩
  show readValue room ⟨'n' :: ("ull".toList ++ rest), bytes⟩ = _
  cases room <;> delta readValue <;> rfl

theorem reads_true : Reads (readValue room) "true".toList (.bool true) := by
  intro rest bytes _
  refine ⟨bytes + 4, ?_⟩
  show readValue room ⟨'t' :: ("rue".toList ++ rest), bytes⟩ = _
  cases room <;> delta readValue <;> rfl

theorem reads_false : Reads (readValue room) "false".toList (.bool false) := by
  intro rest bytes _
  refine ⟨bytes + 5, ?_⟩
  show readValue room ⟨'f' :: ("alse".toList ++ rest), bytes⟩ = _
  cases room <;> delta readValue <;> rfl

theorem readValue_quote (rest : List Char) (bytes : Nat) :
    readValue room ⟨'"' :: rest, bytes⟩ =
      (readText ⟨rest, bytes + 1⟩ >>= fun read => .ok (.text read.1, read.2)) := by
  cases room <;> delta readValue <;> rfl

theorem reads_text (text : String) :
    Reads (readValue room) (writeText text).toList (.text text) := by
  intro rest bytes _
  obtain ⟨after, read⟩ := readText_written text rest (bytes + 1)
  refine ⟨after, ?_⟩
  rw [toList_writeText, List.cons_append, List.append_assoc, List.singleton_append,
    readValue_quote, read, bind_ok]

theorem readValue_minus (rest : List Char) (bytes : Nat) :
    readValue room ⟨'-' :: rest, bytes⟩ = readNumber true ⟨rest, bytes + 1⟩ := by
  cases room <;> delta readValue <;> rfl

theorem readValue_digits (isDigits : Number.Digits digits) (rest : List Char) (bytes : Nat) :
    readValue room ⟨digits ++ rest, bytes⟩ = readNumber false ⟨digits ++ rest, bytes⟩ := by
  obtain ⟨c, more, rfl⟩ := List.exists_cons_of_ne_nil isDigits.nonempty
  have digit : isAsciiDigit c = true := isDigits.digits c (.head more)
  have each : ∀ c ∈ ['n', 't', 'f', '-'], isAsciiDigit c = false := by simp [isAsciiDigit]
  have other : c ∉ ['n', 't', 'f', '-'] := fun member => by
    rw [each c member] at digit
    contradiction
  simp only [List.mem_cons, List.not_mem_nil, or_false, not_or] at other
  rw [List.cons_append]
  unfold readValue
  rw [skipSpace_cons (shown_of_digit digit).1]
  simp [other, digit]

theorem ofWhole_natAbs (exact : (Json.int value).isExact = true) :
    ofWhole (value < 0) value.natAbs = .int value := by
  rw [isExact, Bool.and_eq_true, decide_eq_true_eq, decide_eq_true_eq] at exact
  unfold ofWhole
  by_cases negative : value < 0
  · have nonzero : ¬ value.natAbs = 0 := by omega
    have inRange : ¬ maxNegative < value.natAbs := by omega
    simp only [negative, nonzero, inRange, decide_true, decide_false, Bool.not_true,
      Bool.false_eq_true, if_false, Bool.or_self]
    rw [show -(value.natAbs : Int) = value by omega]
  · simp only [negative, decide_false, Bool.not_false, if_true]
    rw [show (value.natAbs : Int) = value by omega]

theorem reads_int (exact : (Json.int value).isExact = true) :
    Reads (readValue room) (writeInt value).toList (.int value) := by
  intro rest bytes follows
  have number := ofWhole_natAbs exact
  rw [isExact, Bool.and_eq_true, decide_eq_true_eq, decide_eq_true_eq] at exact
  have small : value.natAbs ≤ maxSignificand := by
    simp only [maxNegative, maxSignificand] at exact ⊢
    omega
  have read := readNumber_digits (Number.whole_toDigits value.natAbs) (takeDigits_toDigits small)
    follows
  rw [writeInt, String.toList_ofList, Number.signed]
  by_cases negative : value < 0
  · rw [decide_eq_true negative] at number ⊢
    rw [if_pos rfl, List.cons_append, readValue_minus, read, number]
    exact ⟨_, rfl⟩
  · rw [decide_eq_false negative] at number ⊢
    rw [if_neg (by decide), readValue_digits (Number.digits_toDigits _), read, number]
    exact ⟨_, rfl⟩

theorem endList_cons (rest : List Char) (bytes : Nat) :
    endList ⟨']' :: rest, bytes⟩ = .ok ⟨rest, bytes + 1⟩ := by
  unfold endList
  rw [skipSpace_cons (by decide)]
  rfl

theorem endObject_cons (rest : List Char) (bytes : Nat) :
    endObject ⟨'\x7d' :: rest, bytes⟩ = .ok ⟨rest, bytes + 1⟩ := by
  unfold endObject
  rw [skipSpace_cons (by decide)]
  rfl

theorem readValue_bracket (rest : List Char) (bytes : Nat) :
    readValue (room + 1) ⟨'[' :: rest, bytes⟩ =
      (readItems (readValue room) (rest.length + 1) true ⟨rest, bytes + 1⟩ >>= fun read =>
        endList read.2 >>= fun input => .ok (.array read.1, input)) := by
  delta readValue
  rfl

theorem readValue_brace (rest : List Char) (bytes : Nat) :
    readValue (room + 1) ⟨'\x7b' :: rest, bytes⟩ =
      (readFields (readValue room) (rest.length + 1) true ⟨rest, bytes + 1⟩ >>= fun read =>
        endObject read.2 >>= fun input =>
          .ok (.object (read.1.foldl (fun fields (key, value) => insertField key value fields) []),
            input)) := by
  delta readValue
  rfl

theorem reads_array
    (reads : ∀ item ∈ items, item.isExact = true ∧ Reads (readValue room) item.write.toList item) :
    Reads (readValue (room + 1)) (Json.array items).write.toList (.array items) := by
  intro rest bytes _
  obtain ⟨after, read⟩ := reads_listed (show ']' ∈ _ by decide) rest
    (fun fuel first bytes => by rw [readItems, hasItem_end]; rfl)
    (fun item member => readItems_continues (reads item member).1 (reads item member).2) (bytes + 1)
  rw [← toList_writeItems] at read
  refine ⟨after + 1, ?_⟩
  have text : (Json.array items).write.toList ++ rest =
      '[' :: ((writeItems items).toList ++ ']' :: rest) := by simp [write]
  rw [text, readValue_bracket, read, bind_ok, endList_cons]
  rfl

theorem reads_object
    (reads : ∀ field ∈ fields, Reads (readValue room) field.2.write.toList field.2)
    (sorted : areSorted fields = true) :
    Reads (readValue (room + 1)) (Json.object fields).write.toList (.object fields) := by
  intro rest bytes _
  obtain ⟨after, read⟩ := reads_listed (show '\x7d' ∈ _ by decide) rest
    (fun fuel first bytes => by rw [readFields, hasField_end]; rfl)
    (fun field member => readFields_continues (reads field member)) (bytes + 1)
  rw [← toList_writeFields] at read
  refine ⟨after + 1, ?_⟩
  have text : (Json.object fields).write.toList ++ rest =
      '\x7b' :: ((writeFields fields).toList ++ '\x7d' :: rest) := by simp [write]
  rw [text, readValue_brace, read, bind_ok, endObject_cons, foldl_insertField sorted]
  rfl

end Values

mutual

/-- **A written value is read back.** -/
theorem reads_value : ∀ (value : Json) (room : Nat), value.isExact = true → value.depth ≤ room →
    Reads (readValue room) value.write.toList value
  | .null, _, _, _ => reads_null
  | .bool true, _, _, _ => reads_true
  | .bool false, _, _, _ => reads_false
  | .int _, _, exact, _ => reads_int exact
  | .float _, _, exact, _ => nomatch exact
  | .text content, _, _, _ => reads_text content
  | .array _, 0, _, shallow | .object _, 0, _, shallow => nomatch shallow
  | .array items, room + 1, exact, shallow =>
    reads_array (reads_items items room exact (Nat.le_of_succ_le_succ shallow))
  | .object fields, room + 1, exact, shallow => by
    rw [isExact, Bool.and_eq_true] at exact
    exact reads_object (reads_fields fields room exact.2 (Nat.le_of_succ_le_succ shallow)) exact.1

theorem reads_items : ∀ (items : List Json) (room : Nat), itemsExact items = true →
    itemsDepth items ≤ room →
    ∀ item ∈ items, item.isExact = true ∧ Reads (readValue room) item.write.toList item
  | [], _, _, _ => nofun
  | item :: rest, room, exact, shallow => by
    rw [itemsExact, Bool.and_eq_true] at exact
    obtain ⟨first, others⟩ := Nat.max_le.mp shallow
    exact List.forall_mem_cons.mpr
      ⟨⟨exact.1, reads_value item room exact.1 first⟩, reads_items rest room exact.2 others⟩

theorem reads_fields : ∀ (fields : List (String × Json)) (room : Nat), fieldsExact fields = true →
    fieldsDepth fields ≤ room →
    ∀ field ∈ fields, Reads (readValue room) field.2.write.toList field.2
  | [], _, _, _ => nofun
  | (key, value) :: rest, room, exact, shallow => by
    rw [fieldsExact, Bool.and_eq_true] at exact
    obtain ⟨first, others⟩ := Nat.max_le.mp shallow
    exact List.forall_mem_cons.mpr
      ⟨reads_value value room exact.1 first, reads_fields rest room exact.2 others⟩

end

/-- **A text that was written denotes its value.** -/
theorem parse_write (exact : value.isExact = true) (shallow : value.depth ≤ depthLimit) :
    parse value.write.toList = .ok value := by
  obtain ⟨after, read⟩ := reads_value value depthLimit exact shallow [] 0 nofun
  rw [List.append_nil] at read
  rw [parse, Input.start, read]
  rfl

end TypedScript.Json
