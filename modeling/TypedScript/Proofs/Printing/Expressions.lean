/-
**Reading printed expressions.** The tokens of a printed expression are read one after the other:
each is taken from the text whole, whatever follows behind a blank. What stands in brackets is
shorter, and is left to readers that read shorter texts back.
-/

import TypedScript.Proofs.Printing.Shapes
import TypedScript.Proofs.Text.Escapes
import TypedScript.Syntax.Expressions

namespace TypedScript

open Text

variable {α : Type} {body text : List Char} {word : String} {token : Token}
  {arguments : List (List Token)} {tokens : List Token} {steps : List Step}

/-- Readers that read back what is printed, up to a length. -/
structure Inner.Faithful (inner : Inner) (size : Nat) : Prop where
  expression : ∀ {tokens : List Token}, tokensSpellable tokens = true →
    (printTokens tokens).length < size → ∀ line, inner.expression (printTokens tokens) line =
      .done tokens
  body : ∀ {body : List Stmt}, bodyPrintable body = true → (printBody body).length + 1 < size →
    ∀ line, ∃ read, inner.body ('\n' :: printBody body) line = .done read ∧
      unlinedBody read = unlinedBody body

theorem Reading.done_bind {β : Type} (value : α) (next : α → Reading β) :
    (Reading.done value >>= next) = next value := rfl

theorem Reading.require_some (value : α) (cause : Cause) (line : Nat) :
    Reading.require (some value) cause line = .done value := rfl

/-! ### Strings -/

/-- A printed text denotes the text. -/
theorem unescape_printed (text : List Char) : unescape (text.flatMap printChar) = text := by
  unfold unescape
  induction text with
  | nil => rfl
  | cons c rest ih =>
    rw [List.flatMap_cons, printChar]
    split
    · rename_i special
      simp only [Bool.or_eq_true, decide_eq_true_eq] at special
      rcases special with rfl | rfl
      · exact congrArg ('"' :: ·) ih
      · exact congrArg ('\\' :: ·) ih
    · rename_i plain
      simp only [Bool.or_eq_true, decide_eq_true_eq, not_or] at plain
      rw [List.singleton_append, unescapeFrom, ih]
      exact fun _ _ same => absurd same plain.2

/-- A literal ends at the quote behind its body. -/
theorem closing_printed (isBody : LiteralBody body) (rest : List Char) :
    Quote.closing .inside (body ++ '"' :: rest) = some (body, rest) := by
  induction isBody with
  | nil => rfl
  | plain noQuote noEscape _ ih =>
    rw [List.cons_append, Quote.closing, Quote.step, if_neg noQuote, if_neg noEscape]
    simp only [ih]
    rfl
  | escaped c _ ih =>
    rw [List.cons_append, List.cons_append]
    have two (rest : List Char) : Quote.closing .inside ('\\' :: c :: rest) =
        consCut '\\' (consCut c (Quote.closing .inside rest)) := rfl
    rw [two, ih]
    rfl

/-! ### Accesses -/

theorem chainLength_skip (text rest : List Char) :
    chainLength text.length (text ++ rest) = (chainLength 0 rest).map (· + text.length) := by
  induction text with
  | nil =>
    show chainLength 0 rest = _
    cases chainLength 0 rest <;> rfl
  | cons c text ih =>
    rw [List.length_cons, List.cons_append, chainLength, ih, Option.map_map]
    congr 1

/-- Words and points belong to a chain. -/
theorem chainLength_chars (chars : ∀ c ∈ text, (isWordChar c || c == '.') = true)
    (rest : List Char) :
    chainLength 0 (text ++ rest) = (chainLength 0 rest).map (· + text.length) := by
  induction text with
  | nil =>
    show chainLength 0 rest = _
    cases chainLength 0 rest <;> rfl
  | cons c text ih =>
    rw [List.cons_append, chainLength, if_pos (chars c List.mem_cons_self),
      ih fun d member => chars d (.tail c member), Option.map_map]
    congr 1

def EndsChain (rest : List Char) : Prop :=
  ∀ c ∈ rest.head?, (isWordChar c || c == '.') = false ∧ c ≠ '['

/-- A chain ends where the text does, or in front of another sign. -/
theorem chainLength_end {rest : List Char} (ends : EndsChain rest) : chainLength 0 rest = some 0 := by
  cases rest with
  | nil => rfl
  | cons c rest =>
    obtain ⟨noWord, noIndex⟩ := ends c rfl
    rw [chainLength, noWord, if_neg (by decide), if_neg noIndex]

/-- All printed steps belong to a chain. -/
theorem chainLength_steps (spellable : stepsSpellable steps = true) {rest : List Char}
    (ends : EndsChain rest) :
    chainLength 0 (printSteps steps ++ rest) = some (printSteps steps).length := by
  induction steps with
  | nil => exact chainLength_end ends
  | cons step steps ih =>
    cases step with
    | property name =>
      obtain ⟨word, others⟩ := letters_of_stepsSpellable spellable
      have chars : ∀ c ∈ '.' :: name.toList, (isWordChar c || c == '.') = true :=
        List.forall_mem_cons.mpr ⟨rfl, fun c member => by
          rw [word.letters c member, Bool.true_or]⟩
      rw [printSteps, ← List.cons_append, List.append_assoc, chainLength_chars chars,
        ih others, List.length_append, Option.map_some, Nat.add_comm]
    | index tokens =>
      rw [stepsSpellable, Bool.and_eq_true] at spellable
      have found := balanced_of_passable (by decide : ('[', ']') ∈ bracketPairs)
        (tokens_passable spellable.1) (printSteps steps ++ rest)
      have skip := chainLength_skip (printTokens tokens ++ [']']) (printSteps steps ++ rest)
      rw [List.append_assoc, List.singleton_append, ih spellable.2, Option.map_some,
        List.length_append, List.length_singleton] at skip
      rw [printSteps, List.cons_append, List.append_assoc, List.cons_append, chainLength,
        if_neg (by decide), if_pos rfl, found]
      simp only [skip, Option.map_some, List.length_append, List.length_cons]
      congr 1
      omega

/-- A printed access is one chain. -/
theorem chainLength_printed {base : List Char} (isWord : Letters base)
    (spellable : stepsSpellable steps = true) {rest : List Char} (ends : EndsChain rest) :
    chainLength 0 (base ++ printSteps steps ++ rest) = some (base ++ printSteps steps).length := by
  have chars : ∀ c ∈ base, (isWordChar c || c == '.') = true := fun c member => by
    rw [isWord.letters c member, Bool.true_or]
  rw [List.append_assoc, chainLength_chars chars, chainLength_steps spellable ends,
    Option.map_some, List.length_append, Nat.add_comm]

/-! ### The steps of an access -/

/-- What was read already is passed over. -/
theorem readSteps_skip (inner : Inner) (whole : List Char) (line : Nat) (text rest : List Char) :
    readSteps inner whole line text.length (text ++ rest) = readSteps inner whole line 0 rest := by
  induction text with
  | nil => rfl
  | cons c text ih => rw [List.length_cons, List.cons_append, readSteps, ih]

theorem head_printSteps (steps : List Step) :
    ∀ c ∈ (printSteps steps).head?, isWordChar c = false := by
  rcases steps with _ | ⟨name | tokens, rest⟩
  · intro c head
    contradiction
  · exact forall_head_cons (by decide) _
  · exact forall_head_cons (by decide) _

section Reading

variable {inner : Inner} {size : Nat} (faithful : inner.Faithful size) {steps : List Step}

include faithful

/-- Printed steps are read back. -/
theorem readSteps_printed (spellable : stepsSpellable steps = true)
    (short : (printSteps steps).length ≤ size) (whole : List Char) (line : Nat) :
    readSteps inner whole line 0 (printSteps steps) = .done steps := by
  induction steps with
  | nil => rfl
  | cons step steps ih =>
    cases step with
    | property name =>
      obtain ⟨word, others⟩ := letters_of_stepsSpellable spellable
      rw [printSteps, List.length_cons, List.length_append] at short
      have taken := word.takeWhile (head_printSteps steps)
      have present : name.toList.isEmpty = false := by
        simpa using word.nonempty
      rw [printSteps, readSteps, if_pos rfl, taken]
      simp only [present, Bool.false_eq_true, if_false]
      rw [readSteps_skip, ih others (by omega)]
      simp only [String.ofList_toList]
      rfl
    | index tokens =>
      rw [stepsSpellable, Bool.and_eq_true] at spellable
      rw [printSteps, List.length_cons, List.length_append, List.length_cons] at short
      have found := balanced_of_passable (by decide : ('[', ']') ∈ bracketPairs)
        (tokens_passable spellable.1) (printSteps steps)
      have skip := readSteps_skip inner whole line (printTokens tokens ++ [']'])
        (printSteps steps)
      rw [List.append_assoc, List.singleton_append, List.length_append,
        List.length_singleton] at skip
      rw [printSteps, readSteps, if_neg (by decide), if_pos rfl, found]
      simp only
      rw [faithful.expression spellable.1 (by omega), skip, ih spellable.2 (by omega)]
      rfl

/-- Reading a printed access. -/
theorem readChain_printed {base : String} (isName : isIdentifier base.toList = true)
    (spellable : stepsSpellable steps = true) (short : (printSteps steps).length ≤ size)
    (line : Nat) :
    readChain inner (base.toList ++ printSteps steps) line = .done ⟨base, steps⟩ := by
  have word := letters_of_isIdentifier isName
  have trimmed := (steps_shown word.shown spellable).trim
  have taken := word.takeWhile (head_printSteps steps)
  unfold readChain
  simp only [trimmed, taken, isName, if_true, List.drop_left]
  rw [readSteps_printed faithful spellable short]
  simp only [String.ofList_toList]
  rfl

end Reading

/-! ### Words that mean something -/

/-- A chain that spells a word has no steps. -/
theorem eq_of_chain_eq {base : String} (isName : isIdentifier base.toList = true)
    (isWord : leadingWord word.toList = word.toList)
    (same : base.toList ++ printSteps steps = word.toList) :
    base = word ∧ steps.isEmpty = true := by
  have taken := (letters_of_isIdentifier isName).takeWhile (head_printSteps steps)
  rw [same, isWord] at taken
  refine ⟨String.toList_inj.mp taken.symm, ?_⟩
  rw [taken, List.append_right_eq_self] at same
  rcases steps with _ | ⟨name | tokens, rest⟩
  · rfl
  · contradiction
  · contradiction

section Words

variable {base : String} {steps : List Step} (isName : isIdentifier base.toList = true)
  (free : (steps.isEmpty && isReserved base) = false)

include isName free

/-- An access is no keyword. -/
theorem ofSpelling_chain : Keyword.ofSpelling? (base.toList ++ printSteps steps) = none := by
  refine List.find?_eq_none.mpr fun keyword member same => ?_
  have isWord : leadingWord keyword.spelling.toList = keyword.spelling.toList := by
    cases keyword <;> decide
  obtain ⟨rfl, alone⟩ := eq_of_chain_eq isName isWord (eq_of_beq same).symm
  have reserved : isReserved keyword.spelling = true := by
    cases keyword <;> decide
  rw [reserved, alone] at free
  contradiction

/-- An access is no constant. -/
theorem chain_ne_constant (constant : word ∈ ["true", "false", "null", "await"]) :
    String.ofList (base.toList ++ printSteps steps) ≠ word := by
  intro same
  have each : ∀ word ∈ ["true", "false", "null", "await"],
      leadingWord word.toList = word.toList ∧ isReserved word = true := by decide
  obtain ⟨isWord, reserved⟩ := each word constant
  have spelled : base.toList ++ printSteps steps = word.toList := by
    rw [← same, String.toList_ofList]
  obtain ⟨rfl, alone⟩ := eq_of_chain_eq isName isWord spelled
  rw [reserved, alone] at free
  contradiction

end Words

/-! ### Tokens -/

namespace Scan

/-- The tokens behind one more value. -/
def added (scan : Scan) (token : Token) : Scan :=
  if scan.awaiting then ⟨.await token :: scan.tokens, false⟩ else ⟨token :: scan.tokens, false⟩

theorem pushValue_added {scan : Scan} (ready : scan.endsInValue = false) (token : Token)
    (line : Nat) : scan.pushValue token line = .done (scan.added token) := by
  unfold pushValue added
  rw [ready, if_neg (by decide)]
  split <;> rfl

end Scan

/-- What was read already is passed over. -/
theorem scanTokens_skip (inner : Inner) (line : Nat) (scan : Scan) (passed text rest : List Char) :
    scanTokens inner line text.length scan passed (text ++ rest) =
      scanTokens inner line 0 scan (text.reverse ++ passed) rest := by
  induction text generalizing passed with
  | nil => rfl
  | cons c text ih =>
    rw [List.length_cons, List.cons_append, scanTokens, ih, List.reverse_cons, List.append_assoc]
    rfl

theorem scanTokens_blanks (inner : Inner) (line : Nat) (scan : Scan) (passed : List Char)
    {blanks : List Char} (blank : ∀ c ∈ blanks, isBlank c = true) (rest : List Char) :
    scanTokens inner line 0 scan passed (blanks ++ rest) =
      scanTokens inner line 0 scan (blanks.reverse ++ passed) rest := by
  induction blanks generalizing passed with
  | nil => rfl
  | cons c blanks ih =>
    rw [List.cons_append, scanTokens, if_pos (blank c List.mem_cons_self),
      ih _ fun d member => blank d (.tail c member), List.reverse_cons, List.append_assoc]
    rfl

/-- A part of an expression leads from the tokens before it to those behind it. -/
def Scans (inner : Inner) (line : Nat) (text rest : List Char) (scan next : Scan) : Prop :=
  ∀ passed, scanTokens inner line 0 scan passed (text ++ rest) =
    scanTokens inner line 0 next (text.reverse ++ passed) rest

section Scanning

variable {inner : Inner} {line : Nat} {scan next : Scan} {rest : List Char} {word : List Char}

/-- A word is taken whole. -/
theorem scans_word (nonempty : text ≠ [])
    (first : ∀ c ∈ text.head?, (isAlphabetic c || c == '_') = true)
    (read : readWord inner scan (text ++ rest) line = .done (next, text.length)) :
    Scans inner line text rest scan next := by
  obtain ⟨c, more, rfl⟩ := List.exists_cons_of_ne_nil nonempty
  obtain ⟨wordChar, noDigit⟩ := isWordChar_of_start (first c rfl)
  have shown : isBlank c = false := (⟨by simp, by simpa⟩ : Letters [c]).not_blank c (by simp)
  have each : ∀ c ∈ ['"', '(', '\x7b', '[', '.', '-'] ++ operatorStarts, isWordChar c = false := by
    decide
  have other : c ∉ ['"', '(', '\x7b', '[', '.', '-'] ++ operatorStarts := fun special => by
    rw [each c special] at wordChar
    contradiction
  obtain ⟨other, noOperator⟩ := not_or.mp (List.mem_append.not.mp other)
  simp only [List.mem_cons, List.not_mem_nil, or_false, not_or] at other
  obtain ⟨noQuote, noParen, noBrace, noBracket, noPoint, noMinus⟩ := other
  intro passed
  have noNumber : startsNumber scan c (more ++ rest) = false := by
    simp [startsNumber, noDigit, noPoint, noMinus]
  rw [List.cons_append] at read ⊢
  rw [scanTokens, shown, if_neg (by decide), if_neg noQuote, if_neg noParen, if_neg noBrace,
    if_neg noBracket, noNumber, if_neg (by decide), longestAt_none noOperator]
  simp only [wordChar, if_true, read]
  show scanTokens inner line ((c :: more).length - 1) next (c :: passed) (more ++ rest) = _
  rw [List.length_cons, Nat.add_sub_cancel, scanTokens_skip, List.reverse_cons, List.append_assoc]
  rfl

/-- Tokens are scanned one after the other. -/
theorem Scans.trans {front back : List Char} {middle : Scan}
    (first : Scans inner line front (back ++ rest) scan middle)
    (second : Scans inner line back rest middle next) :
    Scans inner line (front ++ back) rest scan next := by
  intro passed
  rw [List.append_assoc, first, second, List.reverse_append, List.append_assoc]

theorem scans_blank : Scans inner line [' '] rest scan scan :=
  fun passed => scanTokens_blanks inner line scan passed (by decide) rest

/-- An operator is read back. -/
theorem scans_operator {op : Operator} (plain : op.isAssignment = false)
    (idle : scan.awaiting = false) :
    Scans inner line op.spelling.toList (' ' :: rest) scan ⟨.operator op :: scan.tokens, false⟩ := by
  intro passed
  have pushed : scan.pushOperator op line = .done ⟨.operator op :: scan.tokens, false⟩ := by
    rw [Scan.pushOperator, plain, idle]
    rfl
  have found : scanTokens inner line 0 scan passed (op.spelling.toList ++ ' ' :: rest) =
      scan.pushOperator op line >>= fun next =>
        scanTokens inner line 0 next (op.spelling.toList.reverse ++ passed) (' ' :: rest) := by
    cases op <;> rfl
  rw [found, pushed]
  rfl

/-- What stands behind a value: nothing, or an operator. -/
inductive Follows : List Char → Prop where
  | nothing : Follows []
  | operator {op : Operator} (plain : op.isAssignment = false) (rest : List Char) :
    Follows (' ' :: (op.spelling.toList ++ ' ' :: rest))

theorem Follows.head (follows : Follows rest) : ∀ c ∈ rest.head?, c = ' ' := by
  intro c head
  cases follows with
  | nothing => contradiction
  | operator _ _ => exact (Option.some.inj head).symm

/-- Behind blanks there is no arrow. -/
theorem Follows.behind (follows : Follows rest) : ∃ blanks behind, rest = blanks ++ behind ∧
    (∀ c ∈ blanks, isBlank c = true) ∧ (∀ c ∈ behind.head?, isBlank c = false) ∧
    ['=', '>'].isPrefixOf behind = false := by
  cases follows with
  | nothing => exact ⟨[], [], rfl, by simp, by simp, rfl⟩
  | @operator op plain rest =>
    have shown := shown_operator op
    refine ⟨[' '], op.spelling.toList ++ ' ' :: rest, rfl, by decide, ?_, ?_⟩
    · rw [List.head?_append_of_ne_nil _ shown.nonempty]
      exact shown.first
    · cases op <;> rfl

theorem Follows.endsChain (follows : Follows rest) : EndsChain rest := by
  intro c head
  rw [follows.head c head]
  decide

/-- A number is taken whole. -/
theorem scans_startsNumber {c : Char} {more : List Char} {token : Token}
    (shown : isBlank c = false) (other : c ∉ ['"', '(', '\x7b', '['])
    (starts : startsNumber scan c (more ++ rest) = true)
    (read : readNumber c (more ++ rest) line = .done (token, (c :: more).length))
    (ready : scan.endsInValue = false) :
    Scans inner line (c :: more) rest scan (scan.added token) := by
  simp only [List.mem_cons, List.not_mem_nil, or_false, not_or] at other
  obtain ⟨noQuote, noParen, noBrace, noBracket⟩ := other
  intro passed
  rw [List.cons_append, scanTokens, shown, if_neg (by decide), if_neg noQuote, if_neg noParen,
    if_neg noBrace, if_neg noBracket, starts, if_pos rfl, read]
  show (scan.pushValue token line >>= fun next =>
    scanTokens inner line more.length next (c :: passed) (more ++ rest)) = _
  rw [Scan.pushValue_added ready]
  show scanTokens inner line more.length _ (c :: passed) (more ++ rest) = _
  rw [scanTokens_skip, List.reverse_cons, List.append_assoc]
  rfl

/-- A number is read back. -/
theorem scans_number {value : Binary64} (spellable : (Token.number value).isSpellable = true)
    (follows : Follows rest) (ready : scan.endsInValue = false) :
    Scans inner line (Token.number value).print rest scan (scan.added (.number value)) := by
  obtain ⟨negative, first, digits, same, digit, others⟩ := (numberText spellable).parts
  rw [Token.isSpellable, beq_iff_eq, same] at spellable
  have taken : (digits ++ rest).takeWhile (fun c => isAsciiDigit c || c == '.') = digits :=
    (span_append others fun c head => by rw [follows.head c head]; rfl).1
  rw [Token.print_number, same]
  cases negative with
  | true =>
    have starts : startsNumber scan '-' (first :: digits ++ rest) = true := by
      simp [startsNumber, digit, ready]
    have read : readNumber '-' (first :: digits ++ rest) line =
        .done (.number value, ('-' :: first :: digits).length) := by
      unfold readNumber
      rw [List.cons_append, List.takeWhile_cons_of_pos (by rw [digit]; rfl), taken]
      simp only [show Decimal.ofPlain? ('-' :: first :: digits) = some value from spellable]
    exact scans_startsNumber rfl (by decide) starts read ready
  | false =>
    have starts : startsNumber scan first (digits ++ rest) = true := by
      simp [startsNumber, digit]
    have read : readNumber first (digits ++ rest) line =
        .done (.number value, (first :: digits).length) := by
      unfold readNumber
      rw [taken]
      simp only [show Decimal.ofPlain? (first :: digits) = some value from spellable]
    have each : ∀ c ∈ ['"', '(', '\x7b', '['], isAsciiDigit c = false := by decide
    have other : first ∉ ['"', '(', '\x7b', '['] := fun member => by
      rw [each first member] at digit
      contradiction
    have shown := (isAsciiWord_spec (isAsciiWord_of_isAsciiDigit digit)).2
    exact scans_startsNumber shown other starts read ready

/-- Scanning goes on behind the end of a literal. -/
theorem scanTokens_closing {text : List Char} (cut : Quote.closing .inside text = some (body, rest))
    (passed : List Char) :
    scanTokens inner line 0 scan passed ('"' :: text) =
      scan.pushValue (.text (String.ofList (unescape body))) line >>= fun next =>
        scanTokens inner line 0 next (('"' :: (body ++ ['"'])).reverse ++ passed) rest := by
  have skip (next : Scan) := scanTokens_skip inner line next ('"' :: passed) (body ++ ['"']) rest
  simp only [List.append_assoc, List.singleton_append, List.length_append,
    List.length_singleton] at skip
  have decodes : decodeFrom 0 text = some (unescape body, rest) := by rw [decodeFrom_eq, cut]; rfl
  obtain ⟨_, same, -, length⟩ := decodeFrom_eq_some decodes
  obtain ⟨rfl, -⟩ := Prod.mk.inj (Option.some.inj (cut.symm.trans same))
  rw [scanTokens, if_neg (by decide), if_pos rfl, decodes, List.reverse_cons, List.append_assoc]
  show (scan.pushValue (.text (String.ofList (unescape body))) line >>= fun next =>
    scanTokens inner line (text.length - rest.length) next ('"' :: passed) text) = _
  rw [length, (closing_eq_some cut (by decide)).1]
  exact congrArg _ (funext skip)

/-- A literal is read as what it denotes. -/
theorem scans_quoted (isBody : LiteralBody body) (ready : scan.endsInValue = false) :
    Scans inner line (printQuoted body) rest scan
      (scan.added (.text (String.ofList (unescape body)))) := by
  intro passed
  rw [printQuoted, List.cons_append, List.append_assoc, List.singleton_append,
    scanTokens_closing (closing_printed isBody rest), Scan.pushValue_added ready]
  rfl

/-- A text is read back. -/
theorem scans_text (value : String) (ready : scan.endsInValue = false) :
    Scans inner line (Token.text value).print rest scan (scan.added (.text value)) := by
  have read : Scans inner line (printQuoted (value.toList.flatMap printChar)) rest scan _ :=
    scans_quoted (literalBody_printed value.toList) ready
  rwa [unescape_printed, String.ofList_toList] at read

/-- A chain that is not called is one word. -/
theorem readWord_plain (length : chainLength 0 (word ++ rest) = some word.length)
    (noCall : rest.head? ≠ some '(') (pushed : scan.pushWord inner word line = .done next) :
    readWord inner scan (word ++ rest) line = .done (next, word.length) := by
  unfold readWord
  rw [length]
  show (if ((word ++ rest).drop word.length).head? = some '(' then _ else _) = _
  rw [List.drop_left, if_neg noCall]
  show (scan.pushWord inner ((word ++ rest).take word.length) line >>= _) = _
  rw [List.take_left, pushed]
  rfl

theorem Follows.no_call (follows : Follows rest) : rest.head? ≠ some '(' :=
  fun head => absurd (follows.head '(' head) (by decide)

/-- A constant is read back. -/
theorem scans_constant (isName : isIdentifier word = true) (ends : ∀ c ∈ rest.head?, c = ' ')
    (pushed : scan.pushWord inner word line = .done next) :
    Scans inner line word rest scan next := by
  have endsChain : EndsChain rest := fun c head => by
    rw [ends c head]
    decide
  have noCall : rest.head? ≠ some '(' := fun head => absurd (ends '(' head) (by decide)
  have word := letters_of_isIdentifier isName
  have length := chainLength_printed word (rfl : stepsSpellable [] = true) endsChain
  rw [printSteps, List.append_nil] at length
  exact scans_word word.nonempty (isIdentifier_first isName) (readWord_plain length noCall pushed)

end Scanning

section Values

variable {inner : Inner} {size : Nat} (faithful : inner.Faithful size) (line : Nat) {scan : Scan}
  (ready : scan.endsInValue = false) {rest : List Char} {base : String} {steps : List Step}

include faithful

include ready in
/-- An access is taken for itself, and for nothing reserved. -/
theorem pushWord_chain (isName : isIdentifier base.toList = true)
    (free : (steps.isEmpty && isReserved base) = false) (spellable : stepsSpellable steps = true)
    (short : (printSteps steps).length ≤ size) :
    scan.pushWord inner (base.toList ++ printSteps steps) line =
      .done (scan.added (.access base steps)) := by
  have other {word : String} (constant : word ∈ ["true", "false", "null", "await"]) :=
    chain_ne_constant isName free constant
  unfold Scan.pushWord
  simp only [other (by decide : "true" ∈ _), other (by decide : "false" ∈ _),
    other (by decide : "null" ∈ _), other (by decide : "await" ∈ _), if_false, decide_false,
    Bool.false_and, Bool.false_eq_true, ofSpelling_chain isName free, Option.isSome_none]
  rw [readChain_printed faithful isName spellable short]
  exact Scan.pushValue_added ready _ line

include ready in
/-- An access is read back. -/
theorem scans_access (isName : isIdentifier base.toList = true)
    (free : (steps.isEmpty && isReserved base) = false) (spellable : stepsSpellable steps = true)
    (short : (printSteps steps).length ≤ size) (follows : Follows rest) :
    Scans inner line (base.toList ++ printSteps steps) rest scan
      (scan.added (.access base steps)) := by
  have word := letters_of_isIdentifier isName
  have shown := steps_shown word.shown spellable
  have pushed := pushWord_chain faithful line ready isName free spellable short
  have length := chainLength_printed word spellable follows.endsChain
  refine scans_word shown.nonempty ?_ (readWord_plain length follows.no_call pushed)
  rw [List.head?_append_of_ne_nil _ word.nonempty]
  exact isIdentifier_first isName

/-- Arguments are read back. -/
theorem readArguments_printed (spellable : argumentsSpellable arguments = true)
    (short : (printArguments arguments).length < size) :
    readArguments inner line (arguments.map printTokens) = .done arguments := by
  induction arguments with
  | nil => rfl
  | cons argument rest ih =>
    rw [argumentsSpellable, Bool.and_eq_true] at spellable
    have lengths : (printTokens argument).length < size ∧ (printArguments rest).length < size := by
      cases rest with
      | nil =>
        refine ⟨short, Nat.lt_of_le_of_lt (Nat.zero_le _) short⟩
      | cons second rest =>
        rw [printArguments_cons, List.length_append] at short
        simp only [List.length_cons] at short
        omega
    rw [List.map_cons, readArguments, faithful.expression spellable.1 lengths.1,
      ih spellable.2 lengths.2]
    rfl

include ready in
/-- A call is read back. -/
theorem readWord_call (spellable : (Token.call base steps arguments).isSpellable = true)
    (short : (Token.call base steps arguments).print.length ≤ size) (rest : List Char) :
    readWord inner scan ((Token.call base steps arguments).print ++ rest) line =
      .done (scan.added (.call base steps arguments),
        (Token.call base steps arguments).print.length) := by
  rw [Token.isSpellable, Bool.and_eq_true, Bool.and_eq_true] at spellable
  obtain ⟨⟨isName, stepsSpellable⟩, argumentsSpellable⟩ := spellable
  rw [Token.print_call] at short ⊢
  simp only [List.length_append, List.length_cons, List.length_nil] at short
  have ends : EndsChain ('(' :: (printArguments arguments ++ ')' :: rest)) :=
    forall_head_cons (by decide) _
  have length := chainLength_printed (letters_of_isIdentifier isName) stepsSpellable ends
  have interior := balanced_of_passable (by decide : ('(', ')') ∈ bracketPairs)
    (arguments_passable argumentsSpellable) rest
  have chain := readChain_printed faithful isName stepsSpellable (by omega) line
  have read := readArguments_printed faithful line argumentsSpellable (by omega)
  have behind : base.toList ++ printSteps steps ++ '(' :: (printArguments arguments ++ [')']) ++
      rest = base.toList ++ printSteps steps ++ '(' :: (printArguments arguments ++ ')' :: rest) := by
    simp
  rw [behind]
  unfold readWord
  rw [length]
  show (if (List.drop _ _).head? = some '(' then _ else _) = _
  rw [List.drop_left, List.head?_cons, if_pos rfl, interior, Reading.require_some,
    Reading.done_bind, List.take_left, chain]
  simp only [Reading.done_bind, splitArguments_printed argumentsSpellable, read,
    Scan.pushValue_added ready]
  have total : (base.toList ++ printSteps steps ++ '(' ::
      (printArguments arguments ++ [')'])).length =
      (base.toList ++ printSteps steps).length + (printArguments arguments).length + 2 := by
    simp only [List.length_append, List.length_cons, List.length_nil]
    omega
  rw [total]
  rfl

/-- Parentheses without an arrow are a group. -/
theorem readParenthesized_printed (spellable : tokensSpellable tokens = true)
    (short : (printTokens tokens).length < size) {passed : List Char} {after : Cursor}
    (skipped : Cursor.skipBlank ⟨(Token.group tokens).print.reverse ++ passed, rest⟩ = after)
    (noArrow : after.startsWith ['=', '>'] = false) :
    readParenthesized inner ⟨passed, '(' :: (printTokens tokens ++ ')' :: rest)⟩ line =
      .done (.group tokens, after) := by
  have taken := takeBalanced_of_passable (by decide : ('(', ')') ∈ bracketPairs)
    (tokens_passable spellable) passed rest
  rw [Token.print_group] at skipped
  unfold readParenthesized
  rw [taken]
  simp only [skipped, noArrow, Bool.false_eq_true, if_false]
  rw [faithful.expression spellable short]
  rfl

include ready in
/-- A group is read back. -/
theorem scans_group (spellable : tokensSpellable tokens = true)
    (short : (printTokens tokens).length < size) (follows : Follows rest) :
    Scans inner line (Token.group tokens).print rest scan (scan.added (.group tokens)) := by
  obtain ⟨blanks, behind, rfl, blank, first, noArrow⟩ := follows.behind
  intro passed
  have read := readParenthesized_printed faithful line spellable short
    (skipBlank_append ((Token.group tokens).print.reverse ++ passed) blank behind first) noArrow
  have skip := scanTokens_skip inner line (scan.added (.group tokens)) ('(' :: passed)
    (printTokens tokens ++ ')' :: blanks) behind
  have length : (blanks.reverse ++ ((Token.group tokens).print.reverse ++ passed)).length -
      passed.length - 1 = (printTokens tokens ++ ')' :: blanks).length := by
    simp only [Token.print_group, List.length_append, List.length_reverse, List.length_cons,
      List.length_nil]
    omega
  rw [List.append_assoc, List.cons_append] at skip
  rw [scanTokens_blanks inner line _ _ blank]
  rw [Token.print_group, List.cons_append, List.append_assoc, List.singleton_append, scanTokens,
    if_neg (by decide), if_neg (by decide), if_pos rfl]
  simp only [read]
  show (scan.pushValue _ line >>= _) = _
  rw [Scan.pushValue_added ready]
  show scanTokens inner line ((blanks.reverse ++ ((Token.group tokens).print.reverse ++
    passed)).length - passed.length - 1) _ _ _ = _
  rw [length, skip]
  simp

include ready in
/-- **Values but those behind `await`** are read back. -/
theorem scans_operand (spellable : token.isSpellable = true) (isValue : token.isValue = true)
    (noAwait : token.isAwait = false) (short : token.print.length ≤ size) (follows : Follows rest) :
    Scans inner line token.print rest scan (scan.added token) := by
  have constant {word : List Char} (isWord : isIdentifier word = true) {token : Token}
      (pushed : scan.pushWord inner word line = scan.pushValue token line) :
      Scans inner line word rest scan (scan.added token) :=
    scans_constant isWord follows.head (pushed.trans (Scan.pushValue_added ready token line))
  cases token with
  | number value => exact scans_number spellable follows ready
  | text value => exact scans_text value ready
  | bool value =>
    cases value with
    | true | false => exact constant (by decide) rfl
  | null => exact constant (by decide) rfl
  | access base steps =>
    rw [Token.isSpellable, Bool.and_eq_true, Bool.and_eq_true, Bool.not_eq_true'] at spellable
    obtain ⟨⟨isName, free⟩, spellable⟩ := spellable
    rw [Token.print_access, List.length_append] at short
    exact scans_access faithful line ready isName free spellable (by omega) follows
  | group tokens =>
    rw [Token.print_group, List.length_cons, List.length_append] at short
    exact scans_group faithful line ready spellable (by omega) follows
  | call base steps arguments =>
    have read := readWord_call faithful line ready spellable short rest
    have shown := Token.shown spellable
    rw [Token.isSpellable, Bool.and_eq_true, Bool.and_eq_true] at spellable
    have word := letters_of_isIdentifier spellable.1.1
    refine scans_word shown.nonempty ?_ read
    rw [Token.print_call, List.append_assoc, List.head?_append_of_ne_nil _ word.nonempty]
    exact isIdentifier_first spellable.1.1
  | operator | await => contradiction
  | object | array | lambda =>
    contradiction

include ready in
/-- **Every value is read back.** -/
theorem scans_value (spellable : token.isSpellable = true) (isValue : token.isValue = true)
    (idle : scan.awaiting = false) (short : token.print.length ≤ size) (follows : Follows rest) :
    Scans inner line token.print rest scan ⟨token :: scan.tokens, false⟩ := by
  cases isAwait : token.isAwait with
  | false =>
    have added : scan.added token = ⟨token :: scan.tokens, false⟩ := by
      rw [Scan.added, idle]
      rfl
    rw [← added]
    exact scans_operand faithful line ready spellable isValue isAwait short follows
  | true =>
    cases token with
    | await operand =>
      rw [Token.isSpellable, Bool.and_eq_true, Bool.and_eq_true] at spellable
      obtain ⟨⟨isValue, noAwait⟩, spellable⟩ := spellable
      rw [Token.print_await, List.length_append, List.length_cons] at short
      -- The word leaves a scan that waits, and the operand behind the blank ends the wait.
      let waiting : Scan := ⟨scan.tokens, true⟩
      have pushed : scan.pushWord inner "await".toList line = .done waiting := by
        show (if (true && !scan.awaiting && !scan.endsInValue) = true then _ else _) = _
        rw [idle, ready]
        rfl
      have first : Scans inner line "await".toList (' ' :: (operand.print ++ rest)) scan waiting :=
        scans_constant (by decide) (by simp) pushed
      have unchanged : waiting.endsInValue = false := ready
      have second := scans_operand faithful line unchanged spellable isValue
        (by simpa using noAwait) (by omega) follows
      exact first.trans (scans_blank.trans second)
    | _ => contradiction

end Values

/-! ### Whole expressions -/

/-- A printed operator may follow a value. -/
theorem follows_printed {rest : List Token} (noValue : token.isValue = false)
    (spellable : tokensSpellable (token :: rest) = true) :
    Follows (' ' :: printTokens (token :: rest)) := by
  obtain ⟨op, rfl⟩ := Token.exists_operator noValue
  cases rest with
  | nil =>
    contradiction
  | cons second rest =>
    rw [tokensSpellable_cons, Bool.and_eq_true, Bool.and_eq_true, Token.isSpellable] at spellable
    obtain ⟨⟨-, plain⟩, -⟩ := spellable
    rw [printTokens_cons]
    exact .operator (by simpa using plain) _

/-- A printed expression ends in a value. -/
theorem endsInValue_printed (spellable : tokensSpellable tokens = true) :
    Scan.endsInValue ⟨tokens.reverse, false⟩ = true := by
  have head (scan : Scan) : scan.endsInValue = scan.tokens.head?.any Token.isValue := by
    unfold Scan.endsInValue
    split <;> simp [*]
  rw [head, List.head?_reverse]
  induction tokens with
  | nil =>
    contradiction
  | cons token rest ih =>
    cases rest with
    | nil =>
      rw [tokensSpellable, Bool.and_eq_true] at spellable
      exact spellable.1
    | cons second rest =>
      rw [tokensSpellable_cons, Bool.and_eq_true] at spellable
      rw [List.getLast?_cons_cons]
      exact ih spellable.2

section Whole

variable {inner : Inner} {size : Nat} (faithful : inner.Faithful size)

include faithful

/-- **A printed expression is read back, token by token.** -/
theorem scanTokens_printed (line : Nat) (spellable : tokensSpellable tokens = true)
    (short : (printTokens tokens).length ≤ size) {scan : Scan} (idle : scan.awaiting = false)
    (apart : scan.endsInValue = true → tokens.head?.any Token.isValue = false)
    (passed : List Char) :
    scanTokens inner line 0 scan passed (printTokens tokens) =
      .done ⟨tokens.reverse ++ scan.tokens, false⟩ := by
  induction tokens generalizing scan passed with
  | nil =>
    contradiction
  | cons token rest ih =>
    have ready (isValue : token.isValue = true) : scan.endsInValue = false := by
      by_contra ends
      have other := apart (by simpa using ends)
      rw [List.head?_cons, Option.any_some, isValue] at other
      contradiction
    cases rest with
    | nil =>
      rw [tokensSpellable, Bool.and_eq_true] at spellable
      have read := scans_value faithful line (ready spellable.1) spellable.2 spellable.1 idle
        short .nothing passed
      rw [List.append_nil] at read
      exact read
    | cons second rest =>
      have others := spellable
      rw [tokensSpellable_cons, Bool.and_eq_true, Bool.and_eq_true] at spellable
      obtain ⟨⟨distinct, first⟩, spellable⟩ := spellable
      rw [printTokens_cons, List.length_append, List.length_cons] at short
      -- Either way the token is read up to the blank, which leads to the rest.
      have read : Scans inner line token.print (' ' :: printTokens (second :: rest)) scan
          ⟨token :: scan.tokens, false⟩ := by
        cases isValue : token.isValue with
        | true =>
          rw [isValue, Bool.true_and, Bool.not_eq_true'] at distinct
          exact scans_value faithful line (ready isValue) first isValue idle (by omega)
            (follows_printed distinct spellable)
        | false =>
          obtain ⟨op, rfl⟩ := Token.exists_operator isValue
          rw [Token.isSpellable, Bool.not_eq_true'] at first
          exact scans_operator first idle
      have apart : Scan.endsInValue ⟨token :: scan.tokens, false⟩ = true →
          second.isValue = false := fun ends => by
        have isValue : token.isValue = true := ends
        rwa [isValue, Bool.true_and, Bool.not_eq_true'] at distinct
      have behind := ih spellable (by omega) rfl apart (' ' :: (token.print.reverse ++ passed))
      rw [printTokens_cons, read, List.reverse_cons, List.append_assoc]
      exact (scanTokens_blanks inner line _ _ (by decide : ∀ c ∈ [' '], _) _).trans behind

/-- **Reading a printed expression gives its tokens.** -/
theorem readExpression_printed (spellable : tokensSpellable tokens = true)
    (short : (printTokens tokens).length ≤ size) (line : Nat) :
    readExpression inner (printTokens tokens) line = .done tokens := by
  have start : Scan.endsInValue ⟨[], false⟩ = true → tokens.head?.any Token.isValue = false :=
    fun ends => nomatch ends
  have read := scanTokens_printed faithful line spellable short rfl start []
  rw [List.append_nil] at read
  unfold readExpression
  rw [read, Reading.done_bind, endsInValue_printed spellable]
  show Reading.done tokens.reverse.reverse = _
  rw [List.reverse_reverse]

end Whole

end TypedScript
