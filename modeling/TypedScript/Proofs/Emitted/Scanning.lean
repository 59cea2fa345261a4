/-
**Scanning what is written.** Names, numbers, strings and signs are read back as the tokens they are
written for, as long as what follows does not go on with them.

* `spelled_word`, `spelled_numeral`, `spelled_text`, `spelled_mark`: single tokens.
-/

import TypedScript.Generation.Values
import TypedScript.Proofs.Emitted.Reader
import TypedScript.Proofs.Json.RoundTrip
import TypedScript.Proofs.Text.Trimming

namespace TypedScript.Target

open Text Number

variable {rest exponent digits fraction : List Char} {c : Char} {name mark : String}
  {text : List Char}

/-! ### Tokens one by one -/

theorem pieces_skip (text rest : List Char) : pieces text.length (text ++ rest) = pieces 0 rest := by
  induction text with
  | nil => rfl
  | cons c text ih => exact ih

theorem pieces_of_scan (c : Char) (text : List Char) {lexeme : Lexeme} {escaped : Bool}
    (visible : (isSpace c || isLineBreak c) = false)
    (scanned : scan 1 (c :: text ++ rest) = ⟨lexeme, ⟨rest, 1⟩, escaped, []⟩) :
    pieces 0 (c :: text ++ rest) = (pieces 0 rest).map (⟨lexeme, c :: text⟩ :: ·) := by
  have length : (c :: (text ++ rest)).length - rest.length = text.length + 1 := by
    simp only [List.length_cons, List.length_append]
    omega
  have taken : (c :: (text ++ rest)).take (text.length + 1) = c :: text := by
    rw [List.take_succ_cons, List.take_left]
  rw [List.cons_append] at scanned ⊢
  rw [pieces, if_neg (by rw [visible]; exact Bool.false_ne_true)]
  simp only [scanned, length, taken]
  rw [if_pos List.isEmpty_nil, Nat.add_sub_cancel, pieces_skip]

/-- A text that is read as given tokens, whatever follows under a condition. -/
def Spelled (follows : List Char → Prop) (text : List Char) (tokens : List Piece) : Prop :=
  ∀ rest, follows rest → pieces 0 (text ++ rest) = (pieces 0 rest).map (tokens ++ ·)

namespace Spelled

variable {follows follows' : List Char → Prop} {text text' : List Char} {tokens tokens' : List Piece}

theorem append (first : Spelled follows text tokens) (second : Spelled follows' text' tokens')
    (goesOn : ∀ rest, follows' rest → follows (text' ++ rest)) :
    Spelled follows' (text ++ text') (tokens ++ tokens') := by
  intro rest next
  rw [List.append_assoc, first _ (goesOn rest next), second rest next, Option.map_map]
  congr 1
  funext others
  exact (List.append_assoc ..).symm

end Spelled

theorem pieces_blank (rest : List Char) : pieces 0 (' ' :: rest) = pieces 0 rest := rfl

/-! ### What may follow -/

def EndsName (rest : List Char) : Prop :=
  ∀ c ∈ rest.head?, isNamePart c = false ∧ c ≠ '\\'

/-- The characters behind an operand. -/
def delimiters : List Char :=
  [')', ']', '}', ',', ' ']

def EndsOperand (rest : List Char) : Prop :=
  ∀ c ∈ rest.head?, c ∈ delimiters

theorem EndsOperand.endsName (ends : EndsOperand rest) : EndsName rest := by
  intro c head
  have each : ∀ c ∈ delimiters, isNamePart c = false ∧ c ≠ '\\' := by decide
  exact each c (ends c head)

theorem endsOperand_cons (delimiter : c ∈ delimiters) (rest : List Char) :
    EndsOperand (c :: rest) :=
  forall_head_cons delimiter rest

/-! ### Names -/

def isWord (name : String) : Bool :=
  match name.toList with
  | [] => false
  | first :: rest => isNameStart first && rest.all isNamePart

theorem isNameStart_of_space (space : (isSpace c || isLineBreak c) = true) :
    isNameStart c = false := by
  simp only [isSpace, isLineBreak, Bool.or_eq_true, beq_iff_eq] at space
  rcases space with ((blank | rfl) | rfl) | ((rfl | rfl) | rfl) | rfl
  · exact forall_blank (isNameStart · = false) (by decide +kernel) blank
  all_goals decide +kernel

theorem isNamePart_of_isNameStart (start : isNameStart c = true) : isNamePart c = true := by
  unfold isNamePart
  split <;> simp [start]

def Piece.ofWord (name : String) : Piece :=
  ⟨.word name, name.toList⟩

theorem readName_word (parts : ∀ c ∈ text, isNamePart c = true) (ends : EndsName rest) :
    readName (text ++ rest) = ⟨text, rest, true⟩ := by
  obtain ⟨taken, dropped⟩ := span_append parts fun c head => (ends c head).1
  unfold readName
  rw [dropped]
  split
  · exact absurd rfl (ends '\\' rfl).2
  · rw [taken]

theorem spelled_word (word : isWord name = true) : Spelled EndsName name.toList [.ofWord name] := by
  intro rest ends
  unfold isWord at word
  rcases same : name.toList with _ | ⟨first, more⟩
  · rw [same] at word
    contradiction
  · rw [same] at word
    obtain ⟨start, parts⟩ := Bool.and_eq_true_iff.mp word
    have visible : (isSpace first || isLineBreak first) = false := by
      cases space : isSpace first || isLineBreak first with
      | false => rfl
      | true =>
        rw [isNameStart_of_space space] at start
        contradiction
    have parts : ∀ c ∈ first :: more, isNamePart c = true :=
      List.forall_mem_cons.mpr ⟨isNamePart_of_isNameStart start, List.all_eq_true.mp parts⟩
    have scanned : scan 1 (first :: more ++ rest) = ⟨.word name, ⟨rest, 1⟩, false, []⟩ := by
      have starts : startsName (first :: more ++ rest) = true := by
        simp [startsName, start]
      have plain : (rest.head? == some '\\') = false := by
        rcases rest with _ | ⟨c, rest⟩
        · rfl
        · simpa using (ends c rfl).2
      rw [List.cons_append, scan, ← List.cons_append, if_pos starts, scanWord,
        readName_word parts ends, (span_append parts fun c head => (ends c head).1).2, plain, ← same,
        String.ofList_toList]
      rfl
    rw [Piece.ofWord, same]
    exact pieces_of_scan _ _ visible scanned

/-! ### Numbers -/

theorem dropDigits_cons (other : c ≠ '_') (rest : List Char) :
    dropDigits isAsciiDigit (c :: rest) =
      if isAsciiDigit c then dropDigits isAsciiDigit rest else (true, c :: rest) :=
  dropDigits.eq_4 _ _ _ (fun same => absurd same other) fun _ _ same => absurd same other

theorem ne_underscore_of_isAsciiDigit (digit : isAsciiDigit c = true) : c ≠ '_' := by
  rintro rfl
  contradiction

/-- What may follow digits: nothing that goes on with them. -/
def EndsDigits (rest : List Char) : Prop :=
  ∀ c ∈ rest.head?, isAsciiDigit c = false ∧ c ≠ '_'

theorem EndsOperand.endsDigits (ends : EndsOperand rest) : EndsDigits rest := by
  intro c head
  have each : ∀ c ∈ delimiters, isAsciiDigit c = false ∧ c ≠ '_' := by decide
  exact each c (ends c head)

theorem endsDigits_exponent (isExponent : Exponent exponent) (ends : EndsOperand rest) :
    EndsDigits (exponent ++ rest) := by
  cases isExponent with
  | none => exact ends.endsDigits
  | some isSign isDigits => exact forall_head_cons (by decide) _

theorem dropDigits_append (isDigits : ∀ c ∈ digits, isAsciiDigit c = true)
    (ends : EndsDigits rest) : dropDigits isAsciiDigit (digits ++ rest) = (true, rest) := by
  induction digits with
  | nil =>
    rcases rest with _ | ⟨c, rest⟩
    · rfl
    · obtain ⟨noDigit, other⟩ := ends c rfl
      rw [List.nil_append, dropDigits_cons other, noDigit]
      rfl
  | cons digit digits ih =>
    obtain ⟨isDigit, isDigits⟩ := List.forall_mem_cons.mp isDigits
    rw [List.cons_append, dropDigits_cons (ne_underscore_of_isAsciiDigit isDigit), if_pos isDigit]
    exact ih isDigits

theorem dropExponent_append (isExponent : Exponent exponent) (ends : EndsOperand rest) :
    dropExponent (exponent ++ rest) = (true, rest) := by
  cases isExponent with
  | none =>
    rcases rest with _ | ⟨c, rest⟩
    · rfl
    · have delimiter := ends c rfl
      simp only [delimiters, List.mem_cons, List.not_mem_nil, or_false] at delimiter
      rcases delimiter with rfl | rfl | rfl | rfl | rfl <;> rfl
  | @some sign digits isSign isDigits =>
    obtain ⟨digit, more, rfl⟩ := List.exists_cons_of_ne_nil isDigits.nonempty
    obtain ⟨isDigit, others⟩ := List.forall_mem_cons.mp isDigits.digits
    have some : dropSomeDigits isAsciiDigit (digit :: more ++ rest) = (true, rest) := by
      rw [List.cons_append, dropSomeDigits, if_pos isDigit]
      exact dropDigits_append others ends.endsDigits
    rcases isSign with rfl | rfl <;> exact some

theorem dropFraction_append (isDigits : Digits digits) (isExponent : Exponent exponent)
    (ends : EndsOperand rest) :
    dropFraction (digits ++ (exponent ++ rest)) = (true, rest) := by
  obtain ⟨digit, more, rfl⟩ := List.exists_cons_of_ne_nil isDigits.nonempty
  obtain ⟨isDigit, others⟩ := List.forall_mem_cons.mp isDigits.digits
  have any : dropAnyDigits (digit :: more ++ (exponent ++ rest)) = (true, exponent ++ rest) := by
    rw [List.cons_append, dropAnyDigits, if_pos isDigit]
    exact dropDigits_append others (endsDigits_exponent isExponent ends)
  simp only [dropFraction, any, dropExponent_append isExponent ends]
  rfl

theorem dropDecimal_append {whole : List Char} (isDigits : ∀ c ∈ whole, isAsciiDigit c = true)
    (isFraction : Fraction fraction) (isExponent : Exponent exponent) (ends : EndsOperand rest) :
    dropDecimal (whole ++ (fraction ++ (exponent ++ rest))) = (true, rest) := by
  cases isFraction with
  | none =>
    have dropped := dropDigits_append isDigits (endsDigits_exponent isExponent ends)
    have dropped' := dropExponent_append isExponent ends
    simp only [dropDecimal, List.nil_append, dropped]
    cases isExponent with
    | none =>
      rcases rest with _ | ⟨c, rest⟩
      · rfl
      · have delimiter := ends c rfl
        simp only [delimiters, List.mem_cons, List.not_mem_nil, or_false] at delimiter
        rcases delimiter with rfl | rfl | rfl | rfl | rfl <;> rfl
    | @some sign digits isSign isDigits =>
      show (true && (dropExponent ('e' :: sign :: digits ++ rest)).1,
        (dropExponent ('e' :: sign :: digits ++ rest)).2) = _
      rw [dropped']
      rfl
  | @some digits isDigits' =>
    have point : EndsDigits ('.' :: (digits ++ (exponent ++ rest))) :=
      forall_head_cons (by decide) _
    have dropped := dropDigits_append isDigits point
    simp only [dropDecimal, List.cons_append, dropped,
      dropFraction_append isDigits' isExponent ends]
    rfl

theorem head_behind_whole (isFraction : Fraction fraction) (isExponent : Exponent exponent)
    (ends : EndsOperand rest) :
    ∀ c ∈ (fraction ++ (exponent ++ rest)).head?, c ∈ '.' :: 'e' :: delimiters := by
  intro c head
  cases isFraction with
  | some isDigits =>
    obtain rfl : '.' = c := by simpa using head
    exact List.mem_cons_self ..
  | none =>
    cases isExponent with
    | some isSign isDigits =>
      obtain rfl : 'e' = c := by simpa using head
      exact List.mem_cons_of_mem _ (List.mem_cons_self ..)
    | none => exact List.mem_cons_of_mem _ (List.mem_cons_of_mem _ (ends c head))

/-- A numeral is passed whole. -/
theorem dropNumber_append (numeral : Numeral text) (ends : EndsOperand rest) :
    dropNumber (text ++ rest) = (true, rest) := by
  obtain ⟨whole, fraction, exponent, isWhole, isFraction, isExponent, rfl⟩ := numeral.parts
  have dropped := dropDecimal_append isWhole.digits isFraction isExponent ends
  rw [List.append_assoc, List.append_assoc, ← dropped]
  rcases isWhole.noLeadingZero with rfl | leading
  · -- A zero stands alone: what follows it is a point, an exponent or a delimiter.
    rcases behind : fraction ++ (exponent ++ rest) with _ | ⟨c, more⟩
    · rfl
    · have each : ∀ c ∈ '.' :: 'e' :: delimiters,
          (baseDigits? c).isNone = true ∧ isAsciiDigit c = false ∧ (c == '_') = false := by decide
      obtain ⟨decimal, noDigit, other⟩ := each c
        (head_behind_whole isFraction isExponent ends c (by rw [behind]; rfl))
      rw [List.singleton_append, dropNumber, Option.isNone_iff_eq_none.mp decimal]
      simp only [noDigit, other, Bool.false_eq_true, if_false]
  · obtain ⟨first, more, rfl⟩ := List.exists_cons_of_ne_nil isWhole.nonempty
    have isDigit := isWhole.digits first (List.mem_cons_self ..)
    refine dropNumber.eq_3 _ ?_ ?_
    · rintro _ same
      obtain rfl := (List.cons.inj same).1
      contradiction
    · rintro _ _ same
      obtain rfl := (List.cons.inj same).1
      exact leading rfl

theorem isAsciiDigit_code (digit : isAsciiDigit c = true) : 48 ≤ c.toNat ∧ c.toNat ≤ 57 := by
  simpa [isAsciiDigit, Char.le_def, UInt32.le_iff_toNat_le] using digit

theorem not_other_of_isAsciiDigit (digit : isAsciiDigit c = true) :
    (isSpace c || isLineBreak c) = false ∧ (isNameStart c || c == '\\') = false ∧
      (decide (c = '"') || decide (c = '\x27')) = false ∧ c ≠ '.' := by
  have each : ∀ code < 58, 48 ≤ code →
      (isSpace (Char.ofNat code) || isLineBreak (Char.ofNat code)) = false ∧
      (isNameStart (Char.ofNat code) || Char.ofNat code == '\\') = false ∧
      (decide (Char.ofNat code = '"') || decide (Char.ofNat code = '\x27')) = false ∧
      Char.ofNat code ≠ '.' := by decide
  obtain ⟨lower, upper⟩ := isAsciiDigit_code digit
  have found := each c.toNat (by omega) lower
  rwa [Char.ofNat_toNat] at found

theorem spelled_numeral (numeral : Numeral text) : Spelled EndsOperand text [⟨.number, text⟩] := by
  intro rest ends
  have dropped := dropNumber_append numeral ends
  obtain ⟨first, more, rfl, isDigit⟩ :
      ∃ first more, text = first :: more ∧ isAsciiDigit first = true := by
    obtain ⟨whole, fraction, exponent, isWhole, isFraction, isExponent, same⟩ := numeral.parts
    obtain ⟨first, more, rfl⟩ := List.exists_cons_of_ne_nil isWhole.nonempty
    exact ⟨first, _, same, isWhole.digits first (List.mem_cons_self ..)⟩
  obtain ⟨visible, noName, noQuote, noPoint⟩ := not_other_of_isAsciiDigit isDigit
  have starts : startsNumeral (first :: (more ++ rest)) = true := by
    unfold startsNumeral
    split
    · rename_i same
      exact absurd (List.cons.inj same).1 noPoint
    · rename_i same
      rw [← (List.cons.inj same).1]
      exact isDigit
    · contradiction
  have follows : (rest.head?.map fun c => isNameStart c || isAsciiDigit c).getD false = false := by
    rcases rest with _ | ⟨c, rest⟩
    · rfl
    · have each : ∀ c ∈ delimiters, (isNameStart c || isAsciiDigit c) = false := by decide
      exact each c (ends c rfl)
  have scanned : scan 1 (first :: more ++ rest) = ⟨.number, ⟨rest, 1⟩, false, []⟩ := by
    rw [List.cons_append] at dropped ⊢
    rw [scan, startsName, if_neg (by rw [noName]; exact Bool.false_ne_true),
      if_neg (by rw [noQuote]; exact Bool.false_ne_true), if_pos starts]
    simp only [scanNumber, dropped, follows]
    rfl
  exact pieces_of_scan _ _ visible scanned

/-! ### Strings -/

/-- An escape with four digits, of which the first two are zero. -/
def isShortEscape : List Char → Bool
  | ['\\', 'u', '0', '0', high, low] =>
    (high == '0' || high == '1') && (hexDigit? low).any (· < 16) &&
      !(['\\', '"', '\n', '\x0d'].contains low)
  | _ => false

theorem isShortEscape_escapedChar (control : c.toNat < 32)
    (unnamed : c.toNat ∉ [8, 9, 10, 12, 13]) : isShortEscape (Json.escapedChar c) = true := by
  have each : ∀ code < 32, code ∉ [8, 9, 10, 12, 13] →
      isShortEscape (Json.escapedChar (Char.ofNat code)) = true := by decide +kernel
  have found := each c.toNat control unnamed
  rwa [Char.ofNat_toNat] at found

/-- A character that is written as it is. -/
theorem stringEnd_cons (plain : c ≠ '\\') (noQuote : c ≠ '"') (noNewline : c ≠ '\n')
    (noReturn : c ≠ '\x0d') (rest : List Char) :
    stringEnd '"' 1 [] (c :: rest) = stringEnd '"' 1 [] rest := by
  rw [stringEnd.eq_5 _ _ _ _ _ (fun same => absurd same plain) (fun _ same => absurd same plain)
    fun _ _ same => absurd same plain, if_neg noQuote, if_neg noNewline, if_neg noReturn]

theorem isSoundEscape_short {high low : Char} {digit : Nat} (isBit : high = '0' ∨ high = '1')
    (isDigit : hexDigit? low = some digit) (small : digit < 16) (rest : List Char) :
    isSoundEscape 'u' ('0' :: '0' :: high :: low :: rest) = true := by
  obtain ⟨value, bound, read⟩ :
      ∃ value < 32, hexDigits 4 0 ('0' :: '0' :: high :: low :: rest) = (some value, rest) := by
    rcases isBit with rfl | rfl
    · refine ⟨digit, by omega, ?_⟩
      show hexDigits 1 0 (low :: rest) = _
      rw [hexDigits, isDigit]
      simp [hexDigits]
    · refine ⟨16 + digit, by omega, ?_⟩
      show hexDigits 1 1 (low :: rest) = _
      rw [hexDigits, isDigit]
      simp [hexDigits]
  have single : isHighSurrogate value = false := by
    simp only [isHighSurrogate, Bool.and_eq_false_iff, decide_eq_false_iff_not]
    omega
  show (unicodeEscape ('0' :: '0' :: high :: low :: rest)).1.isSome = true
  unfold unicodeEscape
  split
  · rename_i same
    exact absurd (List.cons.inj same).1 (by decide)
  · rw [read]
    dsimp only
    split
    · rw [single]
      rfl
    · rfl

theorem stringEnd_escapedChar (c : Char) (rest : List Char) :
    stringEnd '"' 1 [] (Json.escapedChar c ++ rest) = stringEnd '"' 1 [] rest := by
  by_cases control : c.toNat < 32
  · by_cases named : c.toNat ∈ [8, 9, 10, 12, 13]
    · have same := (Char.ofNat_toNat c).symm
      simp only [List.mem_cons, List.not_mem_nil, or_false] at named
      rcases named with code | code | code | code | code <;> rw [code] at same <;> subst same <;> rfl
    · have short := isShortEscape_escapedChar control named
      unfold isShortEscape at short
      split at short
      · rename_i high low same
        simp only [Bool.and_eq_true, Bool.or_eq_true, beq_iff_eq, Option.any_eq_true,
          decide_eq_true_eq, Bool.not_eq_true', List.contains_eq_mem, List.mem_cons,
          decide_eq_false_iff_not, List.not_mem_nil, or_false, not_or] at short
        obtain ⟨⟨isBit, digit, isDigit, small⟩, plain, noQuote, noNewline, noReturn⟩ := short
        have sound := isSoundEscape_short isBit isDigit small rest
        rw [same]
        show stringEnd '"' 1 (if isSoundEscape 'u' ('0' :: '0' :: high :: low :: rest) then []
          else [1]) ('0' :: '0' :: high :: low :: rest) = _
        rw [sound, if_pos rfl]
        rcases isBit with rfl | rfl
        · exact stringEnd_cons plain noQuote noNewline noReturn rest
        · exact stringEnd_cons plain noQuote noNewline noReturn rest
      · contradiction
  · by_cases quote : c = '"'
    · subst quote
      rfl
    · by_cases backslash : c = '\\'
      · subst backslash
        rfl
      · have code (d : Char) (below : d.toNat < 32) : c ≠ d := by
          rintro rfl
          exact control below
        rw [Json.escapedChar_plain quote backslash control]
        exact stringEnd_cons backslash quote (code _ (by decide)) (code _ (by decide)) rest

def Piece.ofText (value : String) : Piece :=
  ⟨.text (String.ofList ((value.toList.flatMap Json.escapedChar).takeWhile (· != '"'))),
    (Json.writeText value).toList⟩

theorem spelled_text (value : String) :
    Spelled (fun _ => True) (Json.writeText value).toList [.ofText value] := by
  intro rest _
  let body := value.toList.flatMap Json.escapedChar
  have written : (Json.writeText value).toList = '"' :: (body ++ ['"']) := String.toList_ofList
  have ended : stringEnd '"' 1 [] (body ++ '"' :: rest) = ⟨⟨rest, 1⟩, true, []⟩ := by
    show stringEnd '"' 1 [] (value.toList.flatMap Json.escapedChar ++ '"' :: rest) = _
    induction value.toList with
    | nil => rfl
    | cons c chars ih => rw [List.flatMap_cons, List.append_assoc, stringEnd_escapedChar, ih]
  have content : (body ++ '"' :: rest).takeWhile (· != '"') = body.takeWhile (· != '"') :=
    takeWhile_append_of_ends (by simp)
  have scanned : scan 1 ('"' :: (body ++ ['"']) ++ rest) =
      ⟨.text (String.ofList (body.takeWhile (· != '"'))), ⟨rest, 1⟩, false, []⟩ := by
    rw [List.cons_append, List.append_assoc, List.singleton_append, ← content]
    show scanString 1 '"' (body ++ '"' :: rest) = _
    simp only [scanString, ended]
    rfl
  rw [Piece.ofText, written]
  exact pieces_of_scan _ _ (by decide) scanned

/-! ### Signs -/

/-- The token of a sign. -/
def Piece.ofMark (mark : String) : Piece :=
  ⟨.mark mark, mark.toList⟩

/-- The signs that no other sign starts with. -/
def soloMarks : List String :=
  ["(", ")", "[", "]", ",", ":", "\x7b", "\x7d"]

theorem spelled_mark (solo : mark ∈ soloMarks) :
    Spelled (fun _ => True) mark.toList [.ofMark mark] := by
  intro rest _
  simp only [soloMarks, List.mem_cons, List.not_mem_nil, or_false] at solo
  rcases solo with rfl | rfl | rfl | rfl | rfl | rfl | rfl | rfl <;>
    exact pieces_of_scan _ [] (by decide) rfl

theorem spelled_operator {op : Operator} (joins : op.joinsOperands = true) :
    Spelled (fun _ => True) (" ".toList ++ op.target.toList ++ " ".toList) [.ofMark op.target] := by
  intro rest _
  show pieces 0 (' ' :: (op.target.toList ++ [' '] ++ rest)) = _
  rw [pieces_blank, List.append_assoc, ← pieces_blank rest]
  cases op <;> first | contradiction | exact pieces_of_scan _ _ (by decide) rfl

theorem pieces_sign (sign : c ∈ ['-', '!', '.']) (length : mark.length = 1)
    (noNumeral : startsNumeral (c :: rest) = false) (found : mark? (c :: rest) = some mark) :
    pieces 0 (c :: rest) = (pieces 0 rest).map (⟨.mark mark, [c]⟩ :: ·) := by
  have each : ∀ c ∈ ['-', '!', '.'], (isSpace c || isLineBreak c) = false ∧
      (isNameStart c || c == '\\') = false ∧ (decide (c = '"') || decide (c = '\x27')) = false ∧
      c ≠ '\x60' ∧ decide (c = '#') = false := by decide
  obtain ⟨visible, noName, noQuote, noTemplate, noHash⟩ := each c sign
  have scanned : scan 1 (c :: [] ++ rest) = ⟨.mark mark, ⟨rest, 1⟩, false, []⟩ := by
    rw [List.cons_append, List.nil_append, scan, startsName,
      if_neg (by rw [noName]; exact Bool.false_ne_true),
      if_neg (by rw [noQuote]; exact Bool.false_ne_true),
      if_neg (by rw [noNumeral]; exact Bool.false_ne_true), if_neg noTemplate, noHash,
      Bool.false_and, if_neg Bool.false_ne_true, found]
    dsimp only
    rw [length]
    rfl
  exact pieces_of_scan c [] visible scanned

/-- What may follow a minus sign: nothing that makes another sign of it. -/
def EndsMinus (rest : List Char) : Prop :=
  ∀ c ∈ rest.head?, c ≠ '-' ∧ c ≠ '='

/-- What may follow an exclamation mark. -/
def EndsNot (rest : List Char) : Prop :=
  ∀ c ∈ rest.head?, c ≠ '='

theorem spelled_minus : Spelled EndsMinus "-".toList [.ofMark "-"] := by
  intro rest ends
  show pieces 0 ('-' :: rest) = _
  refine pieces_sign (by decide) rfl ?_ ?_
  · cases rest <;> rfl
  · rcases rest with _ | ⟨c, rest⟩
    · rfl
    · obtain ⟨noMinus, noEquals⟩ := ends c rfl
      simp [mark?, marks, List.isPrefixOf, Ne.symm noMinus, Ne.symm noEquals]

theorem spelled_not : Spelled EndsNot "!".toList [.ofMark "!"] := by
  intro rest ends
  show pieces 0 ('!' :: rest) = _
  refine pieces_sign (by decide) rfl ?_ ?_
  · cases rest <;> rfl
  · rcases rest with _ | ⟨c, rest⟩
    · rfl
    · simp [mark?, marks, List.isPrefixOf, Ne.symm (ends c rfl)]

theorem spelled_member (word : isWord name = true) :
    Spelled EndsName (".".toList ++ name.toList) [.ofMark ".", .ofWord name] := by
  have point : Spelled (fun rest => ∀ c ∈ rest.head?, isNameStart c = true) ".".toList
      [.ofMark "."] := by
    intro rest starts
    show pieces 0 ('.' :: rest) = _
    rcases rest with _ | ⟨c, rest⟩
    · exact pieces_sign (by decide) rfl rfl rfl
    · have start := starts c rfl
      have noDigit : isAsciiDigit c = false := by
        cases digit : isAsciiDigit c with
        | false => rfl
        | true =>
          have other := (not_other_of_isAsciiDigit digit).2.1
          rw [start] at other
          contradiction
      have noPoint : '.' ≠ c := by
        rintro rfl
        contradiction
      refine pieces_sign (by decide) rfl noDigit ?_
      simp [mark?, marks, List.isPrefixOf, noPoint]
  have behind : ∀ rest, EndsName rest →
      ∀ c ∈ (name.toList ++ rest).head?, isNameStart c = true := by
    intro rest _ c head
    unfold isWord at word
    rcases same : name.toList with _ | ⟨first, more⟩
    · rw [same] at word
      contradiction
    · rw [same] at word head
      obtain rfl : first = c := by simpa using head
      exact (Bool.and_eq_true_iff.mp word).1
  exact point.append (spelled_word word) behind

end TypedScript.Target
