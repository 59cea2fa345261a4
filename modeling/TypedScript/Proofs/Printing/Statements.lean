/-
**Reading printed statements.** The word in front of a printed statement decides which reader it is
given to, and each reader finds the parts that were printed.

* `readElse_block`, `readElse_conditional`: reading the other side of a branch.
-/

import TypedScript.Proofs.Printing.Declarations

namespace TypedScript

open Text

variable {lines left : List Char} {params : List Param} {name : String} {returns type : Ty}
  {condition value tokens : List Token} {body : List Stmt} {kind : Kind} {text : List Char}

/-! ### Printed statements are passable -/

theorem passable_inBraces (passable : Passable .block lines) : Passable .block (inBraces lines) :=
  .braces (.quiet rfl passable) (.nil .block)

theorem Param.passable {param : Param} (printable : param.isPrintable = true) :
    Passable .list param.print := by
  obtain ⟨isWord, writable⟩ := param.spec printable
  exact (Ty.typeText false writable).passable (by decide) (.quiet rfl (isWord.passable .list))

theorem params_passable (printable : params.all Param.isPrintable = true) :
    Passable .list (printParams params) := by
  induction params with
  | nil => exact .nil .list
  | cons param rest ih =>
    rw [List.all_cons, Bool.and_eq_true] at printable
    cases rest with
    | nil => exact Param.passable printable.1
    | cons second rest =>
      exact (Param.passable printable.1).append (.quiet rfl (.quiet rfl (ih printable.2)))

theorem introduced_passable {level : Level} (keyword : Keyword) (passable : Passable level text) :
    Passable level (introduced keyword text) := by
  have word : Passable level keyword.spelling.toList :=
    (word_of_keyword keyword).passable level
  exact word.append (.quiet (by cases level <;> rfl) passable)

theorem functionHeader_passable (isFree : isFreeName name = true)
    (printable : params.all Param.isPrintable = true) (writable : returns.isWritable = true) :
    Passable .list (functionHeader name params returns) := by
  have back : Passable .list (name.toList ++ '(' :: (printParams params ++ [')', ' '])) :=
    ((word_of_isFreeName isFree).passable .list).append
      (.group (by decide) (params_passable printable) (.quiet rfl (.nil .list)))
  exact introduced_passable .function ((Ty.typeText false writable).passable (by decide)
    (.quiet rfl back))

theorem conditionHeader_passable (keyword : Keyword)
    (printable : tokensPrintable condition = true) :
    Passable .list (conditionHeader keyword condition) :=
  introduced_passable keyword (.group (by decide)
    (tokens_passable (tokens_spellable printable)).to_list
    (.quiet rfl (.nil .list)))

theorem passable_assigned (passable : Passable .list left) (op : Operator)
    (printable : tokensPrintable value = true) :
    Passable .block (assigned left op (printTokens value)) :=
  passable.to_block.append (.quiet rfl (passable_operator (fun _ => rfl)
    (.quiet rfl (tokens_passable (tokens_spellable printable)).to_list.to_block)))

theorem declared_passable (isFree : isFreeName name = true) (writable : type.isWritable = true) :
    Passable .list (type.text.toList ++ ' ' :: name.toList) :=
  (Ty.typeText false writable).passable (by decide)
    (.quiet rfl ((word_of_isFreeName isFree).passable .list))

theorem chain_passable {base : String} (isFree : isFreeName base = true) {steps : List Step}
    (printable : stepsPrintable steps = true) : Passable .list (base.toList ++ printSteps steps) :=
  (((word_of_isFreeName isFree).passable .value).append
    (steps_passable (steps_spellable printable))).to_list

theorem path_body {path : List Char} (plain : (path.all fun c => c != '"' && c != '\\') = true) :
    LiteralBody path := by
  induction path with
  | nil => exact .nil
  | cons c rest ih =>
    simp only [List.all_cons, Bool.and_eq_true, bne_iff_ne, ne_eq] at plain
    exact .plain plain.1.1 plain.1.2 (ih (by simpa using plain.2))

theorem passable_semicolon (passable : Passable .block text) :
    Passable .block (text ++ [';', '\n']) :=
  passable.append (.of_quiet (by decide))

theorem passable_newline (passable : Passable .block text) : Passable .block (text ++ ['\n']) :=
  passable.append (.of_quiet (by decide))

mutual

theorem Kind.passable : ∀ {kind : Kind}, kind.isPrintable = true →
    Passable .block (kind.command ++ kind.ending)
  | .declare name type value constant, printable => by
    rw [Kind.isPrintable, Bool.and_eq_true, Bool.and_eq_true] at printable
    obtain ⟨⟨isFree, writable⟩, printable⟩ := printable
    have declares := passable_assigned (declared_passable isFree writable) .assign printable
    cases constant with
    | true => exact passable_semicolon (introduced_passable .constant declares)
    | false => exact passable_semicolon declares
  | .modify base steps op value, printable => by
    simp only [Kind.isPrintable, Bool.and_eq_true] at printable
    obtain ⟨⟨⟨isFree, stepsPrintable⟩, -⟩, printable⟩ := printable
    exact passable_semicolon (passable_assigned (chain_passable isFree stepsPrintable) op printable)
  | .expression tokens, printable => by
    rw [Kind.isPrintable, Bool.and_eq_true] at printable
    exact passable_semicolon (tokens_passable (tokens_spellable printable.1)).to_list.to_block
  | .function name params returns body, printable => by
    simp only [Kind.isPrintable, Bool.and_eq_true] at printable
    obtain ⟨⟨⟨isFree, params⟩, writable⟩, printable⟩ := printable
    exact passable_newline ((functionHeader_passable isFree params writable).to_block.append
      (passable_inBraces (body_passable printable)))
  | .branch condition body otherwise, printable => by
    rw [Kind.isPrintable, Bool.and_eq_true, Bool.and_eq_true] at printable
    obtain ⟨⟨condition, body⟩, printable⟩ := printable
    exact ((conditionHeader_passable .ifThen condition).to_block.append
      (passable_inBraces (body_passable body))).append
      (passable_newline (Otherwise.passable printable))
  | .loop condition body, printable => by
    rw [Kind.isPrintable, Bool.and_eq_true] at printable
    exact passable_newline ((conditionHeader_passable .loop printable.1).to_block.append
      (passable_inBraces (body_passable printable.2)))
  | .call base steps arguments, printable => by
    exact passable_semicolon (Token.passable (Token.spellable printable) rfl).to_list.to_block
  | .imports path, printable => by
    exact passable_semicolon (introduced_passable .imports
      (passable_quoted .block (path_body printable)))
  | .returns none, _ => .of_quiet (by decide)
  | .returns (some tokens), printable => by
    exact passable_semicolon (introduced_passable .returns
      (tokens_passable (tokens_spellable printable)).to_list.to_block)

theorem Otherwise.passable : ∀ {otherwise : Otherwise}, otherwise.isPrintable = true →
    Passable .block otherwise.print
  | .nothing, _ => .nil .block
  | .block body, printable => by
    exact .quiet rfl (introduced_passable .otherwise (passable_inBraces (body_passable printable)))
  | .elseIf line condition body otherwise, printable => by
    rw [Otherwise.isPrintable, Bool.and_eq_true, Bool.and_eq_true] at printable
    obtain ⟨⟨condition, body⟩, printable⟩ := printable
    have block := (conditionHeader_passable .ifThen condition).to_block.append
      (passable_inBraces (body_passable body))
    exact .append (.quiet rfl (introduced_passable .otherwise block)) (Otherwise.passable printable)

/-- Printed statements are passable in a block. -/
theorem body_passable : ∀ {body : List Stmt}, bodyPrintable body = true →
    Passable .block (printBody body)
  | [], _ => .nil .block
  | .mk line kind :: rest, printable => by
    rw [bodyPrintable, Bool.and_eq_true] at printable
    exact (Kind.passable printable.1).append (body_passable printable.2)

end

/-! ### Statements with a block -/

section Blocks

variable {inner : Inner} {size : Nat} (faithful : inner.Faithful size) (line : Nat)

include faithful

theorem readBlock_printed (printable : bodyPrintable body = true)
    (short : (inBraces (printBody body)).length ≤ size) (passed : List Char) {blanks : List Char}
    (blank : ∀ c ∈ blanks, isBlank c = true) :
    ∃ read after, readBlock inner ⟨passed, blanks ++ inBraces (printBody body)⟩ line =
      .done (read, ⟨after, []⟩) ∧ unlinedBody read = unlinedBody body := by
  have skipped := skipBlank_append passed blank (inBraces (printBody body))
    (forall_head_cons (by decide) _)
  have taken := takeBalanced_of_passable (by decide : ('\x7b', '\x7d') ∈ bracketPairs)
    (.quiet rfl (body_passable printable) : Passable .block ('\n' :: printBody body))
    (blanks.reverse ++ passed) []
  have whole : '\x7b' :: ('\n' :: printBody body ++ ['\x7d']) = inBraces (printBody body) := rfl
  have opened : Cursor.peek ⟨blanks.reverse ++ passed, inBraces (printBody body)⟩ 0 = some '\x7b' :=
    rfl
  rw [whole] at taken
  simp only [inBraces, List.length_cons, List.length_append, List.length_nil] at short
  unfold readBlock
  simp only [skipped, taken, opened, ne_eq, not_true, if_false]
  obtain ⟨read, found, same⟩ := faithful.body printable (by omega) (line +
    Cursor.newlinesPassed ⟨blanks.reverse ++ passed, inBraces (printBody body)⟩)
  rw [found]
  exact ⟨read, _, rfl, same⟩

theorem readConditional_printed (keyword : Keyword) (printable : tokensPrintable condition = true)
    (bodyPrintable : bodyPrintable body = true)
    (short : (conditionHeader keyword condition ++ inBraces (printBody body)).length ≤ size) :
    ∃ read, readConditional inner keyword
        (conditionHeader keyword condition ++ inBraces (printBody body)) line =
      .done (condition, read) ∧ unlinedBody read = unlinedBody body := by
  let behind := '(' :: (printTokens condition ++ ')' :: ([' '] ++ inBraces (printBody body)))
  have text : conditionHeader keyword condition ++ inBraces (printBody body) =
      keyword.spelling.toList ++ ([' '] ++ behind) := by
    simp [conditionHeader, introduced, behind]
  have blank : ∀ c ∈ [' '], isBlank c = true := by decide
  have moved := advance_append [] keyword.spelling.toList ([' '] ++ behind)
  have skipped := skipBlank_append (keyword.spelling.toList.reverse ++ []) blank behind
    (forall_head_cons (by decide) _)
  have opened (passed : List Char) : Cursor.peek ⟨passed, behind⟩ 0 = some '(' := rfl
  have taken (passed : List Char) := takeBalanced_of_passable
    (by decide : ('(', ')') ∈ bracketPairs) (tokens_passable (tokens_spellable printable)) passed
    ([' '] ++ inBraces (printBody body))
  rw [text] at short ⊢
  simp only [behind, List.length_append, List.length_cons] at short
  obtain ⟨read, after, found, same⟩ := readBlock_printed faithful line bodyPrintable (by omega)
    (('(' :: (printTokens condition ++ [')'])).reverse ++
      ([' '].reverse ++ (keyword.spelling.toList.reverse ++ []))) blank
  refine ⟨read, ?_, same⟩
  unfold readConditional
  rw [Cursor.start, ← String.length_toList, moved, skipped]
  simp only [opened, ne_eq, not_true, if_false]
  simp only [behind, taken]
  rw [faithful.expression (tokens_spellable printable) (by omega), Reading.done_bind, found]
  rfl

theorem readFunction_printed (isFree : isFreeName name = true)
    (paramsPrintable : params.all Param.isPrintable = true) (writable : returns.isWritable = true)
    (bodyPrintable : bodyPrintable body = true)
    (short : (functionHeader name params returns ++ inBraces (printBody body)).length ≤ size) :
    ∃ read, readFunction inner
        (functionHeader name params returns ++ inBraces (printBody body)) line =
      .done (.mk line (.function name params returns read)) ∧
      unlinedBody read = unlinedBody body := by
  have word := word_of_isFreeName isFree
  have isType := Ty.typeText false writable
  let header := ' ' :: (returns.text.toList ++ ' ' :: name.toList)
  let behind := '(' :: (printParams params ++ ')' :: ([' '] ++ inBraces (printBody body)))
  have text : functionHeader name params returns ++ inBraces (printBody body) =
      "func".toList ++ (header ++ behind) := by
    simp [functionHeader, introduced, Keyword.spelling, header, behind]
  have noParen : ∀ c ∈ header, (c != '(') = true := by
    refine List.forall_mem_cons.mpr ⟨rfl, List.forall_mem_append.mpr ⟨fun c member => ?_,
      List.forall_mem_cons.mpr ⟨rfl, fun c member => ?_⟩⟩⟩
    · refine bne_iff_ne.mpr ?_
      rintro rfl
      exact absurd (isType.chars '(' member) (by decide)
    · refine bne_iff_ne.mpr ?_
      rintro rfl
      exact absurd (word.word '(' member) (by decide)
  have trimmed : trim header = returns.text.toList ++ ' ' :: name.toList :=
    Shown.trim (isType.shown.join word.shown [' '])
  have named := splitLastBlank_word word returns.text.toList
  have moved := advance_append [] "func".toList (header ++ behind)
  have movedOn := advance_append ("func".toList.reverse ++ []) header behind
  have taken (passed : List Char) := takeBalanced_of_passable
    (by decide : ('(', ')') ∈ bracketPairs) (params_passable paramsPrintable) passed
    ([' '] ++ inBraces (printBody body))
  have headed : (header ++ behind).takeWhile (fun c => c != '(') = header := by
    rw [List.takeWhile_append_of_pos noParen]
    simp [behind]
  have unended (passed : List Char) : Cursor.atEnd ⟨passed, behind⟩ = false := rfl
  rw [text] at short ⊢
  simp only [behind, List.length_append, List.length_cons] at short
  obtain ⟨read, after, found, same⟩ := readBlock_printed faithful line bodyPrintable (by omega)
    (('(' :: (printParams params ++ [')'])).reverse ++
      (header.reverse ++ ("func".toList.reverse ++ []))) (by decide : ∀ c ∈ [' '], isBlank c = true)
  refine ⟨read, ?_, same⟩
  unfold readFunction
  rw [Cursor.start, ← String.length_toList, moved]
  simp only [headed, movedOn, unended, trimmed, named, Bool.false_eq_true, if_false]
  rw [Reading.require_some, Reading.done_bind]
  simp only [word.isIdentifier, isType.shown.trim, readType,
    Ty.read_text (Ty.formed_of_isWritable writable), Bool.not_true, Bool.false_eq_true, if_false,
    behind, taken, readParameters_printed paramsPrintable, String.ofList_toList]
  rw [Reading.lift, Reading.done_bind, Reading.lift, Reading.done_bind, found]
  rfl

end Blocks

/-! ### Whole statements -/

/-- A statement without the other sides of its branch. -/
def Kind.alone : Kind → Kind
  | .branch condition body _ => .branch condition body .nothing
  | kind => kind

theorem ofTokens_printable (several : isSingleCall tokens = false) :
    Kind.ofTokens tokens = .expression tokens := by
  unfold Kind.ofTokens
  split
  · contradiction
  · rfl

theorem shown_inBraces (lines : List Char) : Shown (inBraces lines) := by
  have opener : Shown ['\x7b'] := .of_all (by simp) (by decide)
  exact opener.join (.of_all (by simp) (by decide : ∀ c ∈ ['\x7d'], isBlank c = false))
    ('\n' :: lines)

theorem shown_assigned {value : List Char} (first : Shown left) (second : Shown value)
    (op : Operator) : Shown (assigned left op value) := by
  have behind : Shown (op.spelling.toList ++ ([' '] ++ value)) :=
    (shown_operator op).join second [' ']
  exact first.join behind [' ']

theorem declared_shown (isFree : isFreeName name = true) (writable : type.isWritable = true) :
    Shown (type.text.toList ++ ' ' :: name.toList) :=
  (Ty.typeText false writable).shown.join (word_of_isFreeName isFree).shown [' ']

theorem shown_introduced (keyword : Keyword) (shown : Shown text) :
    Shown (introduced keyword text) :=
  (word_of_keyword keyword).shown.join shown [' ']

theorem shown_block (keyword : Keyword) (front lines : List Char) :
    Shown (introduced keyword front ++ inBraces lines) := by
  rw [introduced, List.append_assoc]
  exact (word_of_keyword keyword).shown.join (shown_inBraces lines) (' ' :: front)

/-- A printed statement has no blanks at its ends. -/
theorem Kind.shown (printable : kind.isPrintable = true) : Shown kind.command := by
  cases kind with
  | declare name type value constant =>
    rw [Kind.isPrintable, Bool.and_eq_true, Bool.and_eq_true] at printable
    obtain ⟨⟨isFree, writable⟩, printable⟩ := printable
    have declares := shown_assigned (declared_shown isFree writable)
      (tokens_shown (tokens_spellable printable))
      .assign
    cases constant with
    | true => exact shown_introduced .constant declares
    | false => exact declares
  | modify base steps op value =>
    simp only [Kind.isPrintable, Bool.and_eq_true] at printable
    obtain ⟨⟨⟨isFree, stepsPrintable⟩, -⟩, printable⟩ := printable
    exact shown_assigned
      (steps_shown (word_of_isFreeName isFree).shown (steps_spellable stepsPrintable))
      (tokens_shown (tokens_spellable printable)) op
  | expression tokens =>
    rw [Kind.isPrintable, Bool.and_eq_true] at printable
    exact tokens_shown (tokens_spellable printable.1)
  | function name params returns body => exact shown_block .function _ _
  | branch condition body otherwise => exact shown_block .ifThen _ _
  | loop condition body => exact shown_block .loop _ _
  | call base steps arguments =>
    exact Token.shown (Token.spellable printable)
  | imports path => exact shown_introduced .imports (shown_quoted path.toList)
  | returns value =>
    cases value with
    | none => exact (word_of_keyword .returns).shown
    | some tokens =>
      exact shown_introduced .returns (tokens_shown (tokens_spellable printable))

/-! ### Which reader a statement is given to -/

theorem leading_none {c : Char} (other : c ∉ ['r', 'c', 'a', 'i', 'f', 'e', 'w'])
    (rest : List Char) : Keyword.leading? (c :: rest) = none := by
  refine List.find?_eq_none.mpr fun keyword _ same => other ?_
  have spelled := eq_of_beq same
  have head : keyword.spelling.toList.head? = some c := by
    have word : leadingWord (c :: rest) ≠ [] := by
      rw [← spelled]
      cases keyword <;> decide
    rw [spelled]
    unfold leadingWord at word ⊢
    rw [List.takeWhile_cons] at word ⊢
    split at word
    · rename_i isWord
      rw [if_pos isWord, List.head?_cons]
    · contradiction
  have each : ∀ keyword ∈ Keyword.all, ∀ c ∈ keyword.spelling.toList.head?,
      c ∈ ['r', 'c', 'a', 'i', 'f', 'e', 'w'] := by decide
  exact each keyword (by cases keyword <;> decide) c head

theorem head_blank (rest : List Char) : ∀ c ∈ (' ' :: rest).head?, isWordChar c = false :=
  forall_head_cons (by decide) rest

theorem leading_introduced (keyword : Keyword) (text : List Char) :
    Keyword.leading? (introduced keyword text) = some keyword := by
  rw [introduced, leading_word (word_of_keyword keyword) (head_blank text)]
  cases keyword <;> rfl

theorem leading_block (keyword : Keyword) (front lines : List Char) :
    Keyword.leading? (introduced keyword front ++ lines) = some keyword := by
  rw [introduced, List.append_assoc]
  exact leading_introduced keyword (front ++ lines)

/-- The only keyword that an expression starts with is `await`. -/
theorem leading_token {token : Token} (printable : token.isPrintable = true) {rest : List Char}
    (ends : ∀ c ∈ rest.head?, isWordChar c = false) :
    Keyword.leading? (token.print ++ rest) = none ∨
      Keyword.leading? (token.print ++ rest) = some .await := by
  cases token with
  | number value =>
    have text := numberText (Token.spellable printable)
    obtain ⟨negative, first, digits, same, digit, -⟩ := text.parts
    rw [Token.print_number, same]
    cases negative with
    | true => exact .inl (leading_none (by decide) _)
    | false =>
      have each : ∀ c ∈ ['r', 'c', 'a', 'i', 'f', 'e', 'w'], isAsciiDigit c = false := by decide
      refine .inl (leading_none (fun member => ?_) _)
      rw [each first member] at digit
      contradiction
  | text value => exact .inl (leading_none (by decide) _)
  | bool value =>
    have isTrue : Word "true".toList := ⟨⟨by decide, by decide⟩, by decide, by decide⟩
    have isFalse : Word "false".toList := ⟨⟨by decide, by decide⟩, by decide, by decide⟩
    cases value with
    | true => exact .inl (leading_word isTrue ends)
    | false => exact .inl (leading_word isFalse ends)
  | null =>
    have isNull : Word "null".toList := ⟨⟨by decide, by decide⟩, by decide, by decide⟩
    exact .inl (leading_word isNull ends)
  | access base steps =>
    rw [Token.isPrintable, Bool.and_eq_true] at printable
    exact .inl (leading_chain printable.1 steps ends)
  | operator op => exact .inl (by cases op <;> exact leading_none (by decide) _)
  | group tokens => exact .inl (leading_none (by decide) _)
  | call base steps arguments =>
    rw [Token.isPrintable, Bool.and_eq_true, Bool.and_eq_true] at printable
    rw [Token.print_call, List.append_assoc (base.toList ++ printSteps steps)]
    exact .inl (leading_chain printable.1.1 steps (forall_head_cons (by decide) _))
  | await operand => exact .inr (leading_block .await operand.print rest)
  | object | array | lambda =>
    contradiction

theorem leading_tokens (printable : tokensPrintable tokens = true) :
    Keyword.leading? (printTokens tokens) = none ∨
      Keyword.leading? (printTokens tokens) = some .await := by
  rcases tokens with _ | ⟨token, _ | ⟨second, rest⟩⟩
  · rw [tokensPrintable] at printable
    contradiction
  · rw [tokensPrintable, Bool.and_eq_true] at printable
    have nothing : ∀ c ∈ ([] : List Char).head?, isWordChar c = false := by simp
    have leads := leading_token printable.2 nothing
    rwa [List.append_nil] at leads
  · rw [tokensPrintable_cons, Bool.and_eq_true, Bool.and_eq_true] at printable
    rw [printTokens_cons]
    exact leading_token printable.1.2 (head_blank _)

section Dispatch

variable (inner : Inner) {text : List Char} (shown : Shown text) (line : Nat)

include shown

theorem readCommand_keyword {keyword : Keyword} (leads : Keyword.leading? text = some keyword) :
    readCommand inner text line =
      match keyword with
      | .returns => readReturn inner text line
      | .constant => readConstant inner text line
      | .imports => readImport text line
      | .function =>
        if (splitAssignment text).isNone then readFunction inner text line
        else readAssignment inner text line false
      | .ifThen => do
        let (condition, body) ← readConditional inner .ifThen text line
        return .mk line (.branch condition body .nothing)
      | .loop => do
        let (condition, body) ← readConditional inner .loop text line
        return .mk line (.loop condition body)
      | .otherwise => .fail .danglingElse line
      | .await => readAssignment inner text line false := by
  unfold readCommand
  simp only [shown.trim, leads]
  cases keyword <;> rfl

theorem readCommand_plain (leads : Keyword.leading? text = none ∨
    Keyword.leading? text = some .await ∨
    Keyword.leading? text = some .function ∧ (splitAssignment text).isSome = true) :
    readCommand inner text line = readAssignment inner text line false := by
  rcases leads with none | await | ⟨function, assigns⟩
  · unfold readCommand
    simp only [shown.trim, none]
  · exact readCommand_keyword inner shown line await
  · refine (readCommand_keyword inner shown line function).trans (if_neg ?_)
    rw [Option.isNone_iff_eq_none, ← Option.not_isSome_iff_eq_none, not_not]
    exact assigns

end Dispatch

/-! ### Whole statements -/

theorem splitAssignment_block {header : List Char} (first : Passable .list header)
    (second : Passable .block lines) : splitAssignment (header ++ inBraces lines) = none := by
  have brace : ('\x7b', '\x7d') ∈ bracketPairs := by decide
  have body : Passable .block ('\n' :: lines) := .quiet rfl second
  have closed : findAssignment 0 .outside (0 + 1) ('\n' :: (lines ++ ['\x7d'])) = none := by
    have deep : assignmentPass.admits .block (0 + 1) := ⟨by decide, .inr (by decide)⟩
    refine (assignmentPass.passes body deep ['\x7d']).trans ?_
    show ('\n' :: lines).foldr consSplit (findAssignment 0 .outside (0 + 1) ['\x7d']) = none
    rw [(findAssignment_brackets.pair brace 0 []).2]
    exact foldr_consSplit_none _
  rw [splitAssignment_eq]
  refine (assignmentPass.passes first ⟨Int.le_refl 0, .inl (by decide)⟩ (inBraces lines)).trans ?_
  show header.foldr consSplit (findAssignment 0 .outside 0 (inBraces lines)) = none
  rw [inBraces, (findAssignment_brackets.pair brace 0 _).1, closed]
  exact foldr_consSplit_none header

theorem splitAssignment_declaration (isFree : isFreeName name = true)
    (writable : type.isWritable = true) (value : List Token) :
    (splitAssignment (declaration name type value)).isSome = true := by
  rw [declaration, splitAssignment_assigned (declared_passable isFree writable) rfl]
  rfl

theorem leading_declaration (name : String) (writable : type.isWritable = true)
    (value : List Token) :
    Keyword.leading? (declaration name type value) = none ∨
      Keyword.leading? (declaration name type value) = some .function := by
  rw [declaration, assigned, List.append_assoc]
  exact leading_type writable _

theorem shown_declaration (isFree : isFreeName name = true) (writable : type.isWritable = true)
    (printable : tokensPrintable value = true) : Shown (declaration name type value) :=
  shown_assigned (declared_shown isFree writable) (tokens_shown (tokens_spellable printable)) .assign

theorem length_le_introduced (keyword : Keyword) (text : List Char) :
    text.length ≤ (introduced keyword text).length := by
  rw [introduced, List.length_append, List.length_cons]
  omega

/-- The value of a declaration is no longer than its statement. -/
theorem length_le_declare (name : String) (type : Ty) (value : List Token) (constant : Bool) :
    (printTokens value).length ≤ (Kind.declare name type value constant).command.length := by
  have inside : (printTokens value).length ≤ (declaration name type value).length := by
    simp only [declaration, assigned, List.length_append, List.length_cons]
    omega
  cases constant with
  | true => exact Nat.le_trans inside (length_le_introduced .constant _)
  | false => exact inside

theorem readImport_printed {path : String}
    (plain : (path.toList.all fun c => c != '"' && c != '\\') = true) (line : Nat) :
    readImport (introduced .imports (printQuoted path.toList)) line =
      .done (.mk line (.imports path)) := by
  have noQuote : ∀ c ∈ path.toList, (c != '"') = true := fun c member =>
    (Bool.and_eq_true_iff.mp (List.all_eq_true.mp plain c member)).1
  have dropped : (introduced .imports (printQuoted path.toList)).drop "import".length =
      [' '] ++ printQuoted path.toList := rfl
  have skipped := skipBlank_append [] (by decide : ∀ c ∈ [' '], isBlank c = true)
    (printQuoted path.toList) (forall_head_cons (by decide) _)
  have taken : (path.toList ++ ['"']).takeWhile (fun c => c != '"') = path.toList := by
    rw [List.takeWhile_append_of_pos noQuote]
    simp
  have opened (passed : List Char) :
      Cursor.peek ⟨passed, printQuoted path.toList⟩ 0 = some '"' := rfl
  have entered (passed : List Char) : (Cursor.advance ⟨passed, printQuoted path.toList⟩ 1).ahead =
      path.toList ++ ['"'] := rfl
  have moved (passed : List Char) :
      Cursor.advance ⟨passed, printQuoted path.toList⟩ (path.toList.length + 1) =
        ⟨('"' :: path.toList).reverse ++ passed, ['"']⟩ :=
    advance_append passed ('"' :: path.toList) ['"']
  unfold readImport
  simp only [dropped, Cursor.start, skipped, opened, entered, taken, moved, ne_eq, not_true,
    if_false, String.ofList_toList]
  rfl

section Whole

variable {inner : Inner} {size : Nat} (faithful : inner.Faithful size) (line : Nat)

include faithful

theorem readReturn_printed (printable : tokensPrintable tokens = true)
    (short : (printTokens tokens).length ≤ size) :
    readReturn inner (introduced .returns (printTokens tokens)) line =
      .done (.mk line (.returns (some tokens))) := by
  have shown := tokens_shown (tokens_spellable printable)
  have value : trim ((introduced .returns (printTokens tokens)).drop "return".length) =
      printTokens tokens := shown.trim
  have present : (printTokens tokens).isEmpty = false := by simpa using shown.nonempty
  unfold readReturn
  simp only [value, present, Bool.false_eq_true, if_false]
  rw [readExpression_printed faithful (tokens_spellable printable) short]
  rfl

theorem readConstant_printed (isFree : isFreeName name = true) (writable : type.isWritable = true)
    (printable : tokensPrintable value = true) (short : (printTokens value).length ≤ size) :
    readConstant inner (introduced .constant (declaration name type value)) line =
      .done (.mk line (.declare name type value true)) := by
  have trimmed : trim ((introduced .constant (declaration name type value)).drop "const".length) =
      declaration name type value := (shown_declaration isFree writable printable).trim
  have assigns := splitAssignment_declaration isFree writable value
  have read := readAssignment_declare faithful line isFree writable printable short true
  unfold readConstant
  simp only [trimmed, assigns]
  rcases leading_declaration name writable value with leads | leads
  · simp only [leads, read]
  · simp only [leads, and_self, if_true, read]

theorem readCommand_declare (isFree : isFreeName name = true) (writable : type.isWritable = true)
    (printable : tokensPrintable value = true) (constant : Bool)
    (shown : Shown (Kind.declare name type value constant).command)
    (short : (Kind.declare name type value constant).command.length ≤ size) :
    readCommand inner (Kind.declare name type value constant).command line =
      .done (.mk line (.declare name type value constant)) := by
  have fits := Nat.le_trans (length_le_declare name type value constant) short
  cases constant with
  | true =>
    have leads := leading_introduced .constant (declaration name type value)
    exact (readCommand_keyword inner shown line leads).trans
      (readConstant_printed faithful line isFree writable printable fits)
  | false =>
    have assigns := splitAssignment_declaration isFree writable value
    have leads := leading_declaration name writable value
    exact (readCommand_plain inner shown line (leads.imp_right fun function =>
      .inr ⟨function, assigns⟩)).trans
      (readAssignment_declare faithful line isFree writable printable fits false)

theorem readCommand_function {params : List Param} {returns : Ty} {body : List Stmt}
    (printable : (Kind.function name params returns body).isPrintable = true)
    (shown : Shown (Kind.function name params returns body).command)
    (short : (Kind.function name params returns body).command.length ≤ size) :
    ∃ read, readCommand inner (Kind.function name params returns body).command line =
      .done (.mk line read) ∧ read.unlined = (Kind.function name params returns body).unlined := by
  simp only [Kind.isPrintable, Bool.and_eq_true] at printable
  obtain ⟨⟨⟨isFree, each⟩, writable⟩, printable⟩ := printable
  obtain ⟨read, found, same⟩ := readFunction_printed faithful line isFree each writable
    printable short
  have leads : Keyword.leading? (functionHeader name params returns ++
      inBraces (printBody body)) = some .function := leading_block .function _ _
  have unassigned := splitAssignment_block (functionHeader_passable isFree each writable)
    (body_passable printable)
  refine ⟨_, (readCommand_keyword inner shown line leads).trans ((if_pos ?_).trans found), ?_⟩
  · exact Option.isNone_iff_eq_none.mpr unassigned
  · exact congrArg (Kind.function name params returns) same

theorem readCommand_returns (printable : tokensPrintable tokens = true)
    (shown : Shown (Kind.returns (some tokens)).command)
    (short : (Kind.returns (some tokens)).command.length ≤ size) :
    readCommand inner (Kind.returns (some tokens)).command line =
      .done (.mk line (.returns (some tokens))) := by
  have leads := leading_introduced .returns (printTokens tokens)
  have short := Nat.le_trans (length_le_introduced .returns (printTokens tokens)) short
  exact (readCommand_keyword inner shown line leads).trans
    (readReturn_printed faithful line printable short)

/-- **Reading a printed statement gives the statement**, but for its lines. -/
theorem readCommand_printed (printable : kind.isPrintable = true)
    (short : kind.command.length ≤ size) :
    ∃ read, readCommand inner kind.command line = .done (.mk line read) ∧
      read.unlined = kind.alone.unlined := by
  have shown := Kind.shown printable
  cases kind with
  | declare name type value constant =>
    rw [Kind.isPrintable, Bool.and_eq_true, Bool.and_eq_true] at printable
    obtain ⟨⟨isFree, writable⟩, printable⟩ := printable
    exact ⟨.declare name type value constant,
      readCommand_declare faithful line isFree writable printable constant shown short, rfl⟩
  | modify base steps op value =>
    simp only [Kind.isPrintable, Bool.and_eq_true] at printable
    obtain ⟨⟨⟨isFree, stepsPrintable⟩, isAssignment⟩, printable⟩ := printable
    have leads := leading_chain isFree steps
      (head_blank (op.spelling.toList ++ ' ' :: printTokens value))
    exact ⟨.modify base steps op value, (readCommand_plain inner shown line (.inl leads)).trans
      (readAssignment_modify faithful line isFree stepsPrintable isAssignment printable short), rfl⟩
  | expression tokens =>
    rw [Kind.isPrintable, Bool.and_eq_true] at printable
    obtain ⟨printable, several⟩ := printable
    have read := readAssignment_expression faithful line printable short
    rw [ofTokens_printable (by simpa using several)] at read
    exact ⟨.expression tokens, (readCommand_plain inner shown line
      ((leading_tokens printable).imp_right .inl)).trans read, rfl⟩
  | function name params returns body =>
    exact readCommand_function faithful line printable shown short
  | branch condition body otherwise =>
    rw [Kind.isPrintable, Bool.and_eq_true, Bool.and_eq_true] at printable
    obtain ⟨⟨holds, printable⟩, -⟩ := printable
    obtain ⟨read, found, same⟩ := readConditional_printed faithful line .ifThen holds printable short
    have leads : Keyword.leading? (conditionHeader .ifThen condition ++
        inBraces (printBody body)) = some .ifThen := leading_block .ifThen _ _
    refine ⟨.branch condition read .nothing, (readCommand_keyword inner shown line leads).trans ?_,
      congrArg (Kind.branch condition · .nothing) same⟩
    show (readConditional inner .ifThen (conditionHeader .ifThen condition ++
      inBraces (printBody body)) line >>= _) = _
    rw [found]
    rfl
  | loop condition body =>
    rw [Kind.isPrintable, Bool.and_eq_true] at printable
    obtain ⟨read, found, same⟩ := readConditional_printed faithful line .loop printable.1
      printable.2 short
    have leads : Keyword.leading? (conditionHeader .loop condition ++
        inBraces (printBody body)) = some .loop := leading_block .loop _ _
    refine ⟨.loop condition read, (readCommand_keyword inner shown line leads).trans ?_,
      congrArg (Kind.loop condition) same⟩
    show (readConditional inner .loop (conditionHeader .loop condition ++
      inBraces (printBody body)) line >>= _) = _
    rw [found]
    rfl
  | call base steps arguments =>
    rw [Kind.isPrintable] at printable
    have single : tokensPrintable [.call base steps arguments] = true := by
      rw [tokensPrintable, printable]
      rfl
    have read := readAssignment_expression faithful line single short
    exact ⟨.call base steps arguments, (readCommand_plain inner shown line
      ((leading_tokens single).imp_right .inl)).trans read, rfl⟩
  | imports path =>
    have leads := leading_introduced .imports (printQuoted path.toList)
    exact ⟨.imports path, (readCommand_keyword inner shown line leads).trans
      (readImport_printed printable line), rfl⟩
  | returns value =>
    cases value with
    | none =>
      have leads : Keyword.leading? (Kind.returns none).command = some .returns := rfl
      exact ⟨.returns none, readCommand_keyword inner shown line leads, rfl⟩
    | some tokens =>
      exact ⟨.returns (some tokens), readCommand_returns faithful line printable shown short, rfl⟩

theorem readElse_block (printable : bodyPrintable body = true)
    (short : (introduced .otherwise (inBraces (printBody body))).length ≤ size) :
    ∃ read, readElse inner (introduced .otherwise (inBraces (printBody body))) line =
      .done (.block read) ∧ unlinedBody read = unlinedBody body := by
  have shown := shown_inBraces (printBody body)
  have trimmed := (shown_introduced .otherwise shown).trim
  have rest : trimStart ((introduced .otherwise (inBraces (printBody body))).drop "else".length) =
      inBraces (printBody body) := trimStart_eq_self shown.first
  have leads : Keyword.leading? (inBraces (printBody body)) = none := leading_none (by decide) _
  simp only [introduced, List.length_append, List.length_cons] at short
  obtain ⟨read, after, found, same⟩ := readBlock_printed faithful line printable (by omega) []
    (by decide : ∀ c ∈ ([] : List Char), isBlank c = true)
  refine ⟨read, ?_, same⟩
  unfold readElse
  simp only [trimmed, rest, leads]
  rw [if_neg (by decide), Text.Cursor.start, ← List.nil_append (inBraces _), found]
  rfl

theorem readElse_conditional (printable : tokensPrintable condition = true)
    (bodyPrintable : bodyPrintable body = true)
    (short : (introduced .otherwise (conditionHeader .ifThen condition ++
      inBraces (printBody body))).length ≤ size) :
    ∃ read, readElse inner (introduced .otherwise (conditionHeader .ifThen condition ++
        inBraces (printBody body))) line = .done (.elseIf line condition read .nothing) ∧
      unlinedBody read = unlinedBody body := by
  let branch := conditionHeader .ifThen condition ++ inBraces (printBody body)
  have shown : Shown branch := shown_block .ifThen _ _
  have trimmed := (shown_introduced .otherwise shown).trim
  have rest : trimStart ((introduced .otherwise branch).drop "else".length) = branch :=
    trimStart_eq_self shown.first
  have leads : Keyword.leading? branch = some .ifThen := leading_block .ifThen _ _
  have fits := Nat.le_trans (length_le_introduced .otherwise branch) short
  obtain ⟨read, found, same⟩ := readConditional_printed faithful line .ifThen printable
    bodyPrintable fits
  refine ⟨read, ?_, same⟩
  show readElse inner (introduced .otherwise branch) line = _
  unfold readElse
  simp only [trimmed, rest, leads, if_true, shown.trim]
  rw [found]
  rfl

end Whole

end TypedScript
