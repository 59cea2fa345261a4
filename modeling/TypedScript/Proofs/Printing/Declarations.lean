/-
**Reading printed declarations.** A statement with an assignment is a declaration or a change. They
are told apart by what stands in front of the last blank of the left side: in front of a name it is a
type, while the only blanks of an access stand in an index.

* `splitAssignment_assigned`, `splitAssignment_value`: looking for the assignment of a statement.
* `splitDeclaration_typed`, `splitDeclaration_chain`: telling declarations from changes.
* `readAssignment_declare`, `readAssignment_modify`, `readAssignment_expression`: **reading a
  declaration, a change or an expression.**
-/

import TypedScript.Proofs.Printing.Expressions
import TypedScript.Proofs.Printing.TypeTexts
import TypedScript.Syntax.Statements

namespace TypedScript

open Text

variable {rest front text : List Char} {name base : String} {type : Ty} {op : Operator} {c : Char}
  {steps : List Step} {value : List Token}

/-! ### Words in front -/

theorem word_of_keyword (keyword : Keyword) : Word keyword.spelling.toList := by
  cases keyword <;> exact ⟨⟨by decide, by decide⟩, by decide, by decide⟩

theorem leading_word {word : List Char} (isWord : Word word)
    (ends : ∀ c ∈ rest.head?, isWordChar c = false) :
    Keyword.leading? (word ++ rest) = Keyword.ofSpelling? word := by
  rw [Keyword.leading?, isWord.takeWhile ends]

theorem ofSpelling_of_isFreeName (isFree : isFreeName name = true) :
    Keyword.ofSpelling? name.toList = none := by
  rw [isFreeName, Bool.and_eq_true, Bool.and_eq_true] at isFree
  simpa using isFree.1.2

theorem leading_chain (isFree : isFreeName base = true) (steps : List Step)
    (ends : ∀ c ∈ rest.head?, isWordChar c = false) :
    Keyword.leading? (base.toList ++ printSteps steps ++ rest) = none := by
  have behind : ∀ c ∈ (printSteps steps ++ rest).head?, isWordChar c = false := by
    rcases empty : printSteps steps with _ | ⟨c, more⟩
    · exact ends
    · have head := head_printSteps steps
      rw [empty] at head
      exact head
  rw [List.append_assoc, leading_word (word_of_isFreeName isFree) behind,
    ofSpelling_of_isFreeName isFree]

/-- Nothing is joined to the last word of a text by what stands behind it. -/
theorem Ty.text_name {params : List Ty} (writable : (Ty.named name params).isWritable = true) :
    isTypeName name = true ∧ ∃ rest, (Ty.named name params).text.toList = name.toList ++ rest ∧
      ∀ c ∈ rest.head?, isWordChar c = false := by
  rw [Ty.isWritable, Bool.and_eq_true] at writable
  refine ⟨writable.1, ?_⟩
  cases params with
  | nil => exact ⟨[], by rw [Ty.toList_text_name, List.append_nil], by simp⟩
  | cons param params => exact ⟨_, Ty.toList_text_params name param params, by simp; decide⟩

theorem Ty.text_first (writable : type.isWritable = true) :
    ∃ (name : String) (rest : List Char), isTypeName name = true ∧
      type.text.toList = name.toList ++ rest ∧ ∀ c ∈ rest.head?, isWordChar c = false := by
  cases type with
  | named name params =>
    obtain ⟨isName, rest, same, ends⟩ := Ty.text_name writable
    exact ⟨name, rest, isName, same, ends⟩
  | union members =>
    rw [Ty.isWritable, Bool.and_eq_true, decide_eq_true_eq] at writable
    obtain ⟨several, writable⟩ := writable
    rcases members with _ | ⟨first, _ | ⟨second, others⟩⟩
    · contradiction
    · contradiction
    · rw [membersWritable, Bool.and_eq_true, Bool.and_eq_true] at writable
      cases first with
      | union _ => exact absurd writable.1.1 Bool.false_ne_true
      | named name params =>
        obtain ⟨isName, rest, same, ends⟩ := Ty.text_name writable.1.2
        have whole := Ty.toList_textList_cons " | " (.named name params) second others
        rw [same, List.append_assoc, ← Ty.toList_text_union] at whole
        exact ⟨name, _, isName, whole, forall_head_append ends (forall_head_cons (by decide) _)⟩

theorem leading_type (writable : type.isWritable = true) (rest : List Char) :
    Keyword.leading? (type.text.toList ++ ' ' :: rest) = none ∨
      Keyword.leading? (type.text.toList ++ ' ' :: rest) = some .function := by
  obtain ⟨name, more, isName, same, ends⟩ := Ty.text_first writable
  have word := word_of_isTypeName isName
  rw [isTypeName, Bool.and_eq_true, Bool.or_eq_true, beq_iff_eq] at isName
  have leads :=
    leading_word word (forall_head_append ends (forall_head_cons (c := ' ') (by decide) rest))
  rw [same, List.append_assoc, leads]
  rcases isName.2 with free | rfl
  · exact .inl (by simpa using free)
  · exact .inr rfl

/-! ### Assignments -/

theorem foldr_consSplit_none (text : List Char) : text.foldr consSplit none = none := by
  induction text with
  | nil => rfl
  | cons c rest ih => rw [List.foldr_cons, ih]; rfl

theorem foldr_consSplit_some (text left right : List Char) (op : Operator) :
    text.foldr consSplit (some (left, op, right)) = some (text ++ left, op, right) := by
  induction text with
  | nil => rfl
  | cons c rest ih => rw [List.foldr_cons, ih]; rfl

theorem splitAssignment_value {level : Level} (expression : level ≠ .block)
    (passable : Passable level text) : splitAssignment text = none := by
  have passes := assignmentPass.passes passable ⟨Int.le_refl 0, .inl expression⟩ []
  rw [List.append_nil] at passes
  rw [splitAssignment_eq]
  exact passes.trans (foldr_consSplit_none text)

theorem splitAssignment_assigned {left : List Char} (passable : Passable .list left)
    (isAssignment : op.isAssignment = true) (value : List Char) :
    splitAssignment (assigned left op value) = some (left ++ [' '], op, ' ' :: value) := by
  have front : Passable .list (left ++ [' ']) := passable.append (.quiet rfl (.nil .list))
  have passes := assignmentPass.passes front ⟨Int.le_refl 0, .inl (by decide)⟩
    (op.spelling.toList ++ ' ' :: value)
  have found : findAssignment 0 .outside 0 (op.spelling.toList ++ ' ' :: value) =
      some ([], op, ' ' :: value) := by
    cases op <;> first | rfl | contradiction
  rw [List.append_assoc, List.singleton_append] at passes
  refine ((splitAssignment_eq _).trans passes).trans ?_
  show (left ++ [' ']).foldr consSplit (findAssignment 0 .outside 0 _) = _
  rw [found, foldr_consSplit_some, List.append_nil]

/-! ### Declarations and changes -/

theorem startsDeclared_of_start (start : (isAsciiLetter c || c == '_') = true) :
    startsDeclared c = true :=
  of_ascii (fun c => (isAsciiLetter c || c == '_') = true → startsDeclared c = true) (by decide)
    (isAsciiWord_code (isAsciiWord_of_start start)) start

theorem continuesDeclared_of_word (isWord : isAsciiWord c = true) : continuesDeclared c = true :=
  of_ascii (fun c => isAsciiWord c = true → continuesDeclared c = true) (by decide)
    (isAsciiWord_code isWord) isWord

theorem Word.isDeclaredName {name : List Char} (isWord : Word name) : isDeclaredName name = true := by
  obtain ⟨first, rest, rfl⟩ := List.exists_cons_of_ne_nil isWord.nonempty
  rw [TypedScript.isDeclaredName, startsDeclared_of_start (isWord.first first rfl), Bool.true_and]
  exact List.all_eq_true.mpr fun c member =>
    continuesDeclared_of_word (isWord.word c (.tail first member))

theorem TypeText.isDeclaredType (isType : TypeText false text) : isDeclaredType text = true := by
  have chars := isType.chars
  have start := isType.first
  obtain ⟨first, rest, rfl⟩ := List.exists_cons_of_ne_nil isType.nonempty
  rw [TypedScript.isDeclaredType, startsDeclared_of_start (start first rfl), Bool.true_and]
  refine List.all_eq_true.mpr fun c member => ?_
  rcases Bool.or_eq_true_iff.mp (chars c (.tail first member)) with isWord | other
  · rw [continuesDeclared_of_word isWord]
    rfl
  · have each : ∀ c ∈ ['<', '>', ',', '|', ' '],
        (continuesDeclared c || "<>,|".toList.contains c || isBlank c) = true := by decide
    exact each c (List.contains_iff_mem.mp other)

theorem splitDeclaration_typed (writable : type.isWritable = true) {name : List Char}
    (isWord : Word name) :
    splitDeclaration (type.text.toList ++ ' ' :: name) = some (type.text.toList, name) := by
  have isType := Ty.typeText false writable
  unfold splitDeclaration
  rw [splitLastBlank_word isWord]
  have trimmed := trimEnd_eq_self isType.shown.last
  simp only [trimmed, isType.isDeclaredType, isWord.isDeclaredName, Bool.and_self, if_true]

theorem splitLastBlank_parts {last : List Char} (found : splitLastBlank text = some (front, last)) :
    ∃ blank, isBlank blank = true ∧ text = front ++ blank :: last := by
  simp only [splitLastBlank] at found
  split at found
  · contradiction
  · rename_i shorter
    obtain ⟨rfl, rfl⟩ := Prod.mk.inj (Option.some.inj found)
    have parts := List.takeWhile_append_dropWhile (p := fun c => !isBlank c) (l := text.reverse)
    have ends := List.head?_dropWhile_not (fun c => !isBlank c) text.reverse
    generalize text.reverse.takeWhile (fun c => !isBlank c) = last at parts shorter ⊢
    generalize text.reverse.dropWhile (fun c => !isBlank c) = others at parts ends
    cases others with
    | nil =>
      rw [List.append_nil] at parts
      exact absurd (by rw [parts, List.reverse_reverse]) shorter
    | cons blank others =>
      have whole : text = others.reverse ++ blank :: last.reverse := by
        rw [← List.reverse_reverse text, ← parts]
        simp
      refine ⟨blank, by simpa using ends, ?_⟩
      have length : text.length - last.reverse.length - 1 = others.reverse.length := by
        rw [whole, List.length_append, List.length_cons]
        omega
      rw [length]
      conv => rhs; rw [whole, List.take_left]
      exact whole

theorem bracket_in_front (printable : stepsPrintable steps = true) {before behind : List Char}
    (shown : ∀ c ∈ front, isBlank c = false) {gap : Char} (blank : isBlank gap = true)
    (same : front ++ printSteps steps = before ++ gap :: behind) :
    '[' ∈ before := by
  have noGap {text : List Char} (shown : ∀ c ∈ text, isBlank c = false) : gap ∉ text := by
    intro member
    rw [shown gap member] at blank
    contradiction
  induction steps generalizing front with
  | nil =>
    rw [printSteps, List.append_nil] at same
    exact absurd (by rw [same]; simp) (noGap shown)
  | cons step rest ih =>
    cases step with
    | property name =>
      rw [stepsPrintable, Bool.and_eq_true] at printable
      have word := word_of_isFreeName printable.1
      have named : ∀ c ∈ '.' :: name.toList, isBlank c = false :=
        List.forall_mem_cons.mpr ⟨rfl, word.not_blank⟩
      refine ih printable.2 (List.forall_mem_append.mpr ⟨shown, named⟩) ?_
      rw [← same, printSteps, List.append_assoc, List.cons_append]
    | index tokens =>
      -- Of the two texts up to the bracket and up to the gap, the second one is longer.
      have first : front ++ ['['] <+: front ++ printSteps (.index tokens :: rest) := by
        rw [printSteps]
        exact ⟨_, by rw [List.append_assoc]; rfl⟩
      have second : before ++ [gap] <+: front ++ printSteps (.index tokens :: rest) :=
        ⟨behind, by rw [same, List.append_assoc]; rfl⟩
      have bracketShown : ∀ c ∈ ['['], isBlank c = false := by decide
      have opened := noGap (List.forall_mem_append.mpr ⟨shown, bracketShown⟩)
      rcases List.prefix_or_prefix_of_prefix first second with bracket | early
      · have inside : '[' ∈ before ++ [gap] := bracket.subset (by simp)
        refine (List.mem_append.mp inside).resolve_right fun last => ?_
        obtain rfl := List.mem_singleton.mp last
        contradiction
      · exact absurd (early.subset (by simp)) opened

theorem mem_trimEnd (member : c ∈ text) (shown : isBlank c = false) : c ∈ trimEnd text := by
  obtain ⟨blanks, blank, whole⟩ := trimEnd_append_blanks text
  rw [whole] at member
  refine (List.mem_append.mp member).resolve_right fun inBlanks => ?_
  rw [blank c inBlanks] at shown
  contradiction

theorem isDeclaredType_char (isType : isDeclaredType text = true) (member : c ∈ text) :
    (continuesDeclared c || "<>,|".toList.contains c || isBlank c) = true := by
  cases text with
  | nil => contradiction
  | cons first rest =>
    rw [isDeclaredType, Bool.and_eq_true, List.all_eq_true] at isType
    rcases List.mem_cons.mp member with rfl | behind
    · rw [continuesDeclared, isType.1]
      rfl
    · exact isType.2 c behind

theorem splitDeclaration_chain (isFree : isFreeName base = true)
    (printable : stepsPrintable steps = true) :
    splitDeclaration (base.toList ++ printSteps steps) = none := by
  unfold splitDeclaration
  split
  · rfl
  · rename_i front name found
    obtain ⟨blank, isBlank, same⟩ := splitLastBlank_parts found
    have word := word_of_isFreeName isFree
    have bracket := mem_trimEnd (bracket_in_front printable word.not_blank isBlank same) (by decide)
    have noType : isDeclaredType (trimEnd front) = false :=
      Bool.eq_false_iff.mpr fun isType => absurd (isDeclaredType_char isType bracket) (by decide)
    simp only [noType, Bool.false_and, Bool.false_eq_true, if_false]

theorem trim_concat_blank (shown : Shown text) : trim (text ++ [' ']) = text := by
  have ends : trimEnd (text ++ [' ']) = trimEnd text :=
    List.rdropWhile_concat_pos isBlank text ' ' rfl
  rw [trim, trimStart_of_shown shown, ends, trimEnd_eq_self shown.last]

section Assignments

variable {inner : Inner} {size : Nat} (faithful : inner.Faithful size) (line : Nat)

include faithful

theorem readAssignment_declare (isFree : isFreeName name = true)
    (writable : type.isWritable = true) (printable : tokensPrintable value = true)
    (short : (printTokens value).length ≤ size) (constant : Bool) :
    readAssignment inner (declaration name type value) line constant =
      .done (.mk line (.declare name type value constant)) := by
  have word := word_of_isFreeName isFree
  have isType := Ty.typeText false writable
  have passable : Passable .list (type.text.toList ++ ' ' :: name.toList) :=
    isType.passable (by decide) (.quiet rfl (word.passable .list))
  have leftShown : Shown (type.text.toList ++ ' ' :: name.toList) :=
    isType.shown.join word.shown [' ']
  have trimmed := trim_concat_blank leftShown
  have shown := tokens_shown (tokens_spellable printable)
  have present : (printTokens value).isEmpty = false := by simpa using shown.nonempty
  unfold readAssignment
  rw [declaration, splitAssignment_assigned passable rfl]
  simp only [trimmed, trim_blank, shown.trim, present, Bool.false_eq_true, if_false,
    splitDeclaration_typed writable word, ne_eq, not_true]
  rw [readType, Ty.read_text (Ty.formed_of_isWritable writable),
    readExpression_printed faithful (tokens_spellable printable) short, String.ofList_toList]
  rfl

theorem readAssignment_modify (isFree : isFreeName base = true)
    (stepsPrintable : stepsPrintable steps = true) (isAssignment : op.isAssignment = true)
    (printable : tokensPrintable value = true)
    (short : (assigned (base.toList ++ printSteps steps) op (printTokens value)).length ≤ size) :
    readAssignment inner (assigned (base.toList ++ printSteps steps) op (printTokens value)) line
        false = .done (.mk line (.modify base steps op value)) := by
  have word := word_of_isFreeName isFree
  have spellable := steps_spellable stepsPrintable
  have passable := ((word.passable .value).append (steps_passable spellable)).to_list
  have trimmed := trim_concat_blank (steps_shown word.shown spellable)
  have shown := tokens_shown (tokens_spellable printable)
  have present : (printTokens value).isEmpty = false := by simpa using shown.nonempty
  simp only [assigned, List.length_append, List.length_cons] at short
  unfold readAssignment
  rw [splitAssignment_assigned passable isAssignment]
  simp only [trimmed, trim_blank, shown.trim, present, Bool.false_eq_true, if_false,
    splitDeclaration_chain isFree stepsPrintable]
  rw [readChain_printed faithful word.isIdentifier spellable (by omega),
    readExpression_printed faithful (tokens_spellable printable) (by omega)]
  rfl

theorem readAssignment_expression {tokens : List Token} (printable : tokensPrintable tokens = true)
    (short : (printTokens tokens).length ≤ size) :
    readAssignment inner (printTokens tokens) line false =
      .done (.mk line (.ofTokens tokens)) := by
  unfold readAssignment
  rw [splitAssignment_value (by decide) (tokens_passable (tokens_spellable printable))]
  simp only [Bool.false_eq_true, if_false]
  rw [readExpression_printed faithful (tokens_spellable printable) short]
  rfl

end Assignments

end TypedScript
