/-
**What is read comes from the blocks.** A reader reports on the line it was given or leaves it to the
readers of the blocks in its text. So all diagnostics and all lines in a tree come from where a block
stands in the text: behind text that closes its braces, with the newlines counted that the reader has
passed. Inside brackets a reader starts to count anew; there blocks stand behind an arrow only.

* `BlockAt`, `LambdasGood`: where blocks stand in a text.
* `readChain_entails`, `readBlock_entails`, `readExpression_entails`: what is known of accesses, blocks
  and expressions.
-/

import TypedScript.Proofs.Json.Closed
import TypedScript.Proofs.Parsing.Plain
import TypedScript.Proofs.Text.Escapes

namespace TypedScript

open Text

variable {front part back word rest : List Char} {cursor : Cursor} {c : Char}

/-! ### Blocks -/

def BlockAt (text before interior : List Char) : Prop :=
  BraceClosed before ∧ BraceClosed interior ∧
    ∃ after, text = before ++ '{' :: (interior ++ '}' :: after)

def EndsInArrow (text : List Char) : Prop :=
  ∃ front blanks, text = front ++ '=' :: '>' :: blanks ∧ '(' ∈ front ∧
    ∀ c ∈ blanks, isBlank c = true

def Here (diag : Diagnostic → Prop) (line : Nat) : Prop :=
  ∀ cause, diag ⟨cause, line⟩

/-- A block is read into good spots, whatever depth its readers were built for. -/
def BodyGood (diag : Diagnostic → Prop) (good : Spot → Prop) (interior : List Char) (line : Nat) :
    Prop :=
  ∀ depth, (readBody (Inner.upTo depth) interior line).Entails diag
    (fun body => Every Part.IsRead (bodyParts body)) fun body => Good good (bodySpots body)

/-- Every block behind an arrow is read into good spots, from wherever its newlines are counted. -/
def LambdasGood (diag : Diagnostic → Prop) (good : Spot → Prop) (text : List Char) (line : Nat) :
    Prop :=
  ∀ skipped before interior, BlockAt text (skipped ++ before) interior → EndsInArrow before →
    BodyGood diag good interior (line + before.count '\n')

/-- Readers that give known parts and good spots. An expression closes its braces. -/
structure Inner.Entails (diag : Diagnostic → Prop) (good : Spot → Prop) (inner : Inner) : Prop where
  expression : ∀ text line, Here diag line → LambdasGood diag good text line →
    (inner.expression text line).Entails diag
      (fun tokens => BraceClosed text ∧ Every Part.IsRead (expressionParts tokens))
      fun tokens => Good good (tokensSpots tokens)
  body : ∀ text line, BodyGood diag good text line →
    (inner.body text line).Entails diag (fun body => Every Part.IsRead (bodyParts body))
      fun body => Good good (bodySpots body)

section Readers

variable {diag : Diagnostic → Prop} {good : Spot → Prop} {inner : Inner} {line : Nat}

theorem LambdasGood.inside (lambdas : LambdasGood diag good (front ++ part ++ back) line)
    (closed : BraceClosed front) :
    LambdasGood diag good part line := by
  rintro skipped before interior ⟨first, second, after, rfl⟩ arrow
  refine lambdas (front ++ skipped) before interior ⟨?_, second, after ++ back, ?_⟩ arrow
  · rw [List.append_assoc]
    exact closed.append first
  · simp only [List.append_assoc, List.cons_append]

theorem LambdasGood.behind (lambdas : LambdasGood diag good (front ++ part) line)
    (closed : BraceClosed front) :
    LambdasGood diag good part line := by
  rw [← List.append_nil (front ++ part)] at lambdas
  exact lambdas.inside closed

theorem LambdasGood.ahead (lambdas : LambdasGood diag good (part ++ back) line) :
    LambdasGood diag good part line := by
  rw [← List.nil_append part] at lambdas
  exact lambdas.inside .nil

theorem LambdasGood.trim {text : List Char} (lambdas : LambdasGood diag good text line) :
    LambdasGood diag good (trim text) line := by
  obtain ⟨before, after, first, _, whole⟩ := trim_eq text
  rw [whole] at lambdas
  exact lambdas.inside (.blanks first)

/-! ### Texts -/

theorem take_interior (interior after : List Char) (closer : Char) :
    (interior ++ closer :: after).take (interior.length + 1) = interior ++ [closer] := by
  rw [List.append_cons, ← List.length_concat (a := closer), List.concat_eq_append, List.take_left]

theorem take_leadingWord (text : List Char) :
    text.take (leadingWord text).length = leadingWord text :=
  (List.prefix_iff_eq_take.mp (List.takeWhile_prefix _)).symm

theorem closed_leadingWord (text : List Char) : BraceClosed (leadingWord text) :=
  .word fun _ member => List.mem_takeWhile_imp member

/-- What an access that was read has from its text. -/
structure Chain.From (text : List Char) (chain : Chain) : Prop where
  closed : BraceClosed text
  identifier : isIdentifier (leadingWord (trim text)) = true
  base : chain.base = String.ofList (leadingWord (trim text))
  only : chain.steps = [] → leadingWord (trim text) = trim text
  steps : Every Part.IsRead (stepsParts chain.steps)

theorem Chain.From.parts {text : List Char} {chain : Chain} (comes : chain.From text) :
    Every Part.IsRead (.base chain.base :: stepsParts chain.steps) := by
  rw [Every.cons_iff, Part.IsRead, comes.base, String.toList_ofList]
  exact ⟨comes.identifier, comes.steps⟩

theorem closed_of_plainWord {name : String} (same : String.ofList word = name)
    (plain : ∀ c ∈ name.toList, isPlain c = true) : BraceClosed word := by
  refine .plain fun c member => plain c ?_
  rwa [← same, String.toList_ofList]

theorem splitArguments_append (text : List Char) : ∃ last,
    (pieces argumentBrackets .outside 0 text).map trim = splitArguments text ++ last ∧
      ∀ piece ∈ last, piece = [] := by
  rw [splitArguments, trimmedPieces_eq]
  dsimp only
  split_ifs with blank
  · obtain ⟨front, whole⟩ := List.getLast?_eq_some_iff.mp blank
    refine ⟨[[]], ?_, by simp⟩
    rw [whole, List.dropLast_concat]
  · exact ⟨[], (List.append_nil _).symm, by simp⟩

theorem splitArguments_located {text argument : List Char} {front back : List (List Char)}
    (split : splitArguments text = front ++ argument :: back)
    (earlier : ∀ piece ∈ front, BraceClosed piece) :
    ∃ before after, text = before ++ argument ++ after ∧ BraceClosed before := by
  obtain ⟨last, whole, _⟩ := splitArguments_append text
  rw [split, List.append_assoc, List.cons_append] at whole
  obtain ⟨first, others, cut, rfl, more⟩ := List.map_eq_append_iff.mp whole
  obtain ⟨piece, behind, rfl, rfl, -⟩ := List.map_eq_cons_iff.mp more
  obtain ⟨blanks, blanks', blank, _, same⟩ := trim_eq piece
  have closed : BraceClosed (first.flatMap (· ++ [','])) := by
    have all : ∀ piece ∈ first, BraceClosed piece := fun piece member =>
      (earlier _ (List.mem_map_of_mem member)).of_trim
    clear cut split whole more earlier
    induction first with
    | nil => exact .nil
    | cons piece rest ih =>
      obtain ⟨one, others⟩ := List.forall_mem_cons.mp all
      rw [List.flatMap_cons]
      exact (one.concat (by decide)).append (ih others)
  refine ⟨first.flatMap (· ++ [',']) ++ blanks, blanks' ++ behind.flatMap (',' :: ·), ?_,
    closed.append (.blanks blank)⟩
  rw [← intercalate_pieces argumentBrackets .outside 0 text, cut, intercalate_append_cons]
  conv_lhs => rw [same]
  simp only [List.append_assoc]

theorem closed_of_splitArguments {text : List Char}
    (all : ∀ piece ∈ splitArguments text, BraceClosed piece) : BraceClosed text := by
  obtain ⟨last, whole, blank⟩ := splitArguments_append text
  have each : ∀ piece ∈ pieces argumentBrackets .outside 0 text, BraceClosed piece := by
    refine fun piece member => BraceClosed.of_trim ?_
    have among := List.mem_map_of_mem (f := trim) member
    rw [whole] at among
    rcases List.mem_append.mp among with listed | dropped
    · exact all _ listed
    · rw [blank _ dropped]
      exact .nil
  exact of_pieces .nil (.plain (by decide)) (fun _ _ => BraceClosed.append) each

/-! ### Cursors -/

def Cursor.Passes (cursor after : Cursor) : Prop :=
  ∃ taken, cursor.ahead = taken ++ after.ahead ∧ after.passed = taken.reverse ++ cursor.passed ∧
    BraceClosed taken

namespace Cursor.Passes

variable {first second third : Cursor}

theorem trans (one : Passes first second) (two : Passes second third) : Passes first third := by
  obtain ⟨taken, ahead, passed, closed⟩ := one
  obtain ⟨taken', ahead', passed', closed'⟩ := two
  refine ⟨taken ++ taken', ?_, ?_, closed.append closed'⟩
  · rw [ahead, ahead', List.append_assoc]
  · rw [passed', passed, List.reverse_append, List.append_assoc]

theorem skipBlank (cursor : Cursor) : Passes cursor cursor.skipBlank := by
  obtain ⟨blanks, blank, ahead, passed⟩ := cursor.skipBlank_eq
  exact ⟨blanks, ahead, passed, .blanks blank⟩

theorem advance {count : Nat} (closed : BraceClosed (cursor.ahead.take count)) :
    Passes cursor (cursor.advance count) :=
  ⟨_, (List.take_append_drop count _).symm, rfl, closed⟩

theorem takeBalanced {after : Cursor} {opener closer : Char} {interior : List Char}
    (taken : cursor.takeBalanced opener closer = (some interior, after))
    (brackets : isPlain opener = true ∧ isPlain closer = true) (inside : BraceClosed interior) :
    Passes cursor after := by
  obtain ⟨_, ahead, passed⟩ := Cursor.takeBalanced_eq_some taken
  refine ⟨opener :: (interior ++ [closer]), ?_, passed,
    .cons brackets.1 (inside.concat brackets.2)⟩
  rw [ahead]
  simp

/-- The text around a cursor stays the same. -/
theorem whole (passes : Passes first second) :
    second.passed.reverse ++ second.ahead = first.passed.reverse ++ first.ahead := by
  obtain ⟨taken, ahead, passed, _⟩ := passes
  rw [ahead, passed]
  simp

theorem closed (passes : Passes first second) (start : BraceClosed first.passed.reverse) :
    BraceClosed second.passed.reverse := by
  obtain ⟨taken, _, passed, closed⟩ := passes
  rw [passed, List.reverse_append, List.reverse_reverse]
  exact start.append closed

end Cursor.Passes

theorem isPlain_of_mem_spelling (op : Operator) : ∀ c ∈ op.spelling.toList, isPlain c = true := by
  cases op <;> decide

theorem closed_behind {length : Nat} (closed : BraceClosed front)
    (first : length = 0 → isPlain c = true) (taken : BraceClosed ((c :: rest).take length)) :
    BraceClosed (front ++ [c] ++ rest.take (length - 1)) := by
  rw [List.append_assoc]
  refine closed.append ?_
  cases length with
  | zero => exact .plain (by simpa using first rfl)
  | succ shorter => exact taken

/-! ### Tokens -/

variable {text : List Char} {scan : Scan} (reads : inner.Entails diag good) (here : Here diag line)

include here

/-- What is known behind a token: the tokens so far are sound, and there are some. -/
abbrev Scan.Reached (text : List Char) (scan : Scan) : Prop :=
  scan.IsSound text ∧ scan.Started

theorem pushValue_entails (sound : scan.IsSound text) {token : Token}
    (operand : token.IsOperand fun name => ¬scan.Started → StartsWith text name) :
    (scan.pushValue token line).Entails diag (Scan.Reached text) fun next =>
      Good good token.spots → Good good (tokensSpots scan.tokens) →
        Good good (tokensSpots next.tokens) := by
  unfold Scan.pushValue
  have added (first : Good good token.spots) (rest : Good good (tokensSpots scan.tokens)) :=
    Good.append_iff.mpr ⟨first, rest⟩
  refine .refusing (here _) fun behind => .ite
    (fun _ => .done ⟨?_, Scan.started_cons _ _ _⟩ added)
    fun waits => .done ⟨?_, Scan.started_cons _ _ _⟩ added
  · have allowed : (Token.await token).isAllowed = true := by
      rw [Token.isAllowed, operand.isValue, operand.single]
      rfl
    have parts : Every Part.IsRead (Token.await token).parts := by
      rw [Token.parts]
      exact operand.parts
    exact sound.push (fun ends => absurd ends behind) allowed operand.free parts (by simp) false
  · refine sound.push (fun ends => absurd ends behind)
      (Token.isAllowed_of_isValue operand.isValue operand.single) operand.free operand.parts
      (fun none base steps arguments same => ?_) false
    exact operand.callee base steps arguments same fun started => waits (started none)

theorem pushOperator_entails (sound : scan.IsSound text) (op : Operator) :
    (scan.pushOperator op line).Entails diag (Scan.Reached text) fun next =>
      Good good (tokensSpots scan.tokens) → Good good (tokensSpots next.tokens) := by
  unfold Scan.pushOperator
  refine .refusing (here _) fun refused => .done ⟨?_, Scan.started_cons _ _ _⟩ id
  rw [Bool.or_eq_true, not_or, Bool.not_eq_true] at refused
  have allowed : (Token.operator op).isAllowed = true := by
    rw [Token.isAllowed, refused.1]
    rfl
  exact sound.push (fun _ => rfl) allowed (by simp [Token.soleName?])
    (Every.nil : Every Part.IsRead (Token.operator op).parts) (by simp) false

theorem readNumber_entails (starts : startsNumber scan c rest = true) :
    (readNumber c rest line).Entails diag
      (fun read => 0 < read.2 ∧ BraceClosed ((c :: rest).take read.2) ∧
        ∀ called, read.1.IsOperand called)
      fun read => Good good read.1.spots := by
  have first : isPlain c = true := by
    unfold startsNumber at starts
    simp only [Bool.or_eq_true, Bool.and_eq_true, beq_iff_eq] at starts
    rcases starts with (digit | ⟨rfl, _⟩) | ⟨⟨rfl, _⟩, _⟩
    · exact isPlain_of_class digit (by decide)
    · decide
    · decide
  have others : ∀ d ∈ rest.takeWhile fun d => isAsciiDigit d || d == '.', isPlain d = true :=
    fun d member => by
      have among : (isAsciiDigit d || d == '.') = true :=
        List.mem_takeWhile_imp (p := fun d => isAsciiDigit d || d == '.') member
      rcases (Bool.or_eq_true _ _).mp among with digit | point
      · exact isPlain_of_class digit (by decide)
      · rw [beq_iff_eq.mp point]
        decide
  unfold readNumber
  dsimp only
  split
  · refine .done ⟨Nat.succ_pos _, ?_, fun _ => .lone rfl .nil⟩ .nil
    rw [List.length_cons, List.take_succ_cons,
      ← List.prefix_iff_eq_take.mp (List.takeWhile_prefix _)]
    exact .plain (List.forall_mem_cons.mpr ⟨first, others⟩)
  · exact .fail (here _)

theorem readLiteral_entails (opener closer : Char) :
    (readLiteral opener closer text line).Entails diag
      (fun read => 0 < read.2 ∧ BraceClosed (text.take read.2)) fun _ => True := by
  unfold readLiteral
  rcases found : balanced opener closer text with _ | ⟨interior, after⟩
  · exact .fail (here _)
  · dsimp only
    split
    · exact .fail (here _)
    · rename_i value parsed
      refine .done ⟨Nat.succ_pos _, ?_⟩ trivial
      have taken : text.take (opener :: (interior ++ [closer])).length =
          opener :: (interior ++ [closer]) := by
        rw [balanced_eq_some found, List.length_cons, List.take_succ_cons, List.length_append,
          List.length_singleton, take_interior]
      rw [taken]
      exact Json.braceClosed_of_parse parsed

/-! ### Accesses and arguments -/

include reads

theorem readSteps_entails (whole : List Char) (skip : Nat)
    (lambdas : LambdasGood diag good (front ++ text) line)
    (closed : BraceClosed (front ++ text.take skip)) :
    (readSteps inner whole line skip text).Entails diag
      (fun steps => BraceClosed (front ++ text) ∧ Every Part.IsRead (stepsParts steps) ∧
        (steps = [] → text.length ≤ skip))
      fun steps => Good good (stepsSpots steps) := by
  induction text generalizing skip front with
  | nil =>
    rw [readSteps]
    rw [List.take_nil] at closed
    exact .done ⟨closed, .nil, fun _ => Nat.zero_le _⟩ .nil
  | cons c rest ih =>
    have next : LambdasGood diag good (front ++ [c] ++ rest) line := by
      rwa [List.append_assoc]
    have moved : front ++ c :: rest = front ++ [c] ++ rest := by simp
    cases skip with
    | succ skip =>
      rw [readSteps, moved]
      refine (ih skip next ?_).imp (fun _ known => ⟨known.1, known.2.1, ?_⟩) fun _ _ => id
      · rwa [List.append_assoc]
      · exact fun none => Nat.succ_le_succ (known.2.2 none)
    | zero =>
      rw [List.take_zero, List.append_nil] at closed
      rw [readSteps, moved]
      refine .ite (fun dot => .refusing (here _) fun named => ?_) fun _ =>
        .ite (fun opened => ?_) fun _ => .fail (here _)
      · subst dot
        have front : BraceClosed (front ++ ['.'] ++ rest.take (leadingWord rest).length) := by
          rw [take_leadingWord]
          exact (closed.concat (by decide)).append (closed_leadingWord rest)
        refine .bind (ih _ next front) fun steps known => .pure ⟨known.1, ?_, by simp⟩ id
        rw [stepsParts, Every.cons_iff, Part.IsRead, String.toList_ofList]
        exact ⟨⟨mt List.isEmpty_iff.mpr named, fun c member => List.mem_takeWhile_imp member⟩,
          known.2.1⟩
      · subst opened
        rcases found : balanced '[' ']' ('[' :: rest) with _ | ⟨interior, after⟩
        · exact .fail (here _)
        · have cut := (List.cons.inj (balanced_eq_some found)).2
          have inside : LambdasGood diag good interior line := by
            rw [cut, ← List.append_assoc] at next
            exact next.inside (closed.concat (by decide))
          refine .bind (reads.expression _ _ here inside) fun index indexed =>
            .bind (ih (interior.length + 1) next ?_) fun steps known =>
              .pure ⟨known.1, ?_, by simp⟩ fun others first => Good.append_iff.mpr ⟨first, others⟩
          · rw [cut, take_interior]
            exact (closed.concat (by decide)).append (indexed.1.concat (by decide))
          · rw [stepsParts, ← List.cons_append, Every.append_iff]
            exact ⟨indexed.2, known.2.1⟩

theorem readChain_entails (lambdas : LambdasGood diag good text line) :
    (readChain inner text line).Entails diag (Chain.From text)
      fun chain => Good good (stepsSpots chain.steps) := by
  have whole : leadingWord (trim text) ++ (trim text).drop (leadingWord (trim text)).length =
      trim text := by
    conv_rhs => rw [← List.take_append_drop (leadingWord (trim text)).length (trim text)]
    rw [take_leadingWord]
  have parts : LambdasGood diag good
      (leadingWord (trim text) ++ (trim text).drop (leadingWord (trim text)).length) line := by
    rw [whole]
    exact lambdas.trim
  have start : BraceClosed (leadingWord (trim text) ++
      ((trim text).drop (leadingWord (trim text)).length).take 0) := by
    rw [List.take_zero, List.append_nil]
    exact closed_leadingWord _
  unfold readChain
  refine .ite (fun identifier => .bind (readSteps_entails reads here _ 0 parts start)
    fun steps known => .pure ⟨?_, identifier, rfl, fun none => ?_, known.2.1⟩ id) fun _ =>
      .fail (here _)
  · have closed := known.1
    rw [whole] at closed
    exact closed.of_trim
  · have ended := known.2.2 none
    rw [List.length_drop, Nat.le_zero, Nat.sub_eq_zero_iff_le] at ended
    exact (List.takeWhile_prefix _).eq_of_length_le ended

/-! ### Expressions -/

theorem pushWord_entails (sound : scan.IsSound text)
    (trimmed : (∀ c ∈ trim word, isWordChar c = true) → trim word = word)
    (lambdas : LambdasGood diag good word line) :
    (scan.pushWord inner word line).Entails diag
      (fun next => BraceClosed word ∧ next.Reached text) fun next =>
        Good good (tokensSpots scan.tokens) → Good good (tokensSpots next.tokens) := by
  have constant {token : Token} (name : String) (same : String.ofList word = name)
      (plain : ∀ c ∈ name.toList, isPlain c = true)
      (operand : token.IsOperand fun name => ¬scan.Started → StartsWith text name)
      (none : token.spots = []) :
      (scan.pushValue token line).Entails diag
        (fun next => BraceClosed word ∧ next.Reached text) fun next =>
          Good good (tokensSpots scan.tokens) → Good good (tokensSpots next.tokens) :=
    (pushValue_entails here sound operand).imp
      (fun _ reached => ⟨closed_of_plainWord same plain, reached⟩)
      fun _ _ holds => holds (by rw [none]; exact .nil)
  unfold Scan.pushWord
  refine .ite (fun same => constant _ same (by decide) (.lone rfl .nil) rfl) fun notTrue =>
    .ite (fun same => constant _ same (by decide) (.lone rfl .nil) rfl) fun notFalse =>
      .ite (fun same => constant _ same (by decide) (.lone rfl .nil) rfl) fun notNull =>
        .ite (fun waits => .done ⟨?_, ⟨?_, fun _ => rfl⟩⟩ id) fun _ =>
          .refusing (here _) fun noKeyword => .bind (readChain_entails reads here lambdas)
            fun chain comes => (pushValue_entails here sound ⟨rfl, rfl, ?_, ?_, by simp⟩).imp
              (fun _ reached => ⟨comes.closed, reached⟩) fun _ _ holds => holds
  · simp only [Bool.and_eq_true, decide_eq_true_eq] at waits
    exact closed_of_plainWord waits.1.1 (by decide)
  · exact ⟨sound.apart, sound.allowed, sound.free, sound.parts, sound.first⟩
  · obtain ⟨base, steps⟩ := chain
    cases steps with
    | cons step rest => simp [Token.soleName?]
    | nil =>
      obtain rfl : base = _ := comes.base
      rintro _ ⟨⟩
      rw [comes.only rfl, trimmed fun c member => ?_]
      · simp_all [isReserved]
      · rw [← comes.only rfl] at member
        exact List.mem_takeWhile_imp member
  · exact comes.parts

theorem readArguments_entails {texts : List (List Char)}
    (located : ∀ front text back, texts = front ++ text :: back →
      (∀ earlier ∈ front, BraceClosed earlier) → LambdasGood diag good text line) :
    (readArguments inner line texts).Entails diag
      (fun arguments => (∀ text ∈ texts, BraceClosed text) ∧
        Every Part.IsRead (argumentsParts arguments))
      fun arguments => Good good (argumentsSpots arguments) := by
  induction texts with
  | nil => exact .done ⟨nofun, .nil⟩ .nil
  | cons text rest ih =>
    rw [readArguments]
    refine .bind (reads.expression _ _ here (located [] text rest rfl nofun))
      fun tokens first => .bind (ih fun front next back same earlier => ?_)
        fun arguments further => .pure ⟨List.forall_mem_cons.mpr ⟨first.1, further.1⟩, ?_⟩
          fun rest first => Good.append_iff.mpr ⟨first, rest⟩
    · exact located (text :: front) next back (by rw [same]; rfl)
        (List.forall_mem_cons.mpr ⟨first.1, earlier⟩)
    · rw [argumentsParts, ← List.cons_append, Every.append_iff]
      exact ⟨first.2, further.2⟩

theorem readWord_entails {whole : List Char} (sound : scan.IsSound whole)
    (fresh : ¬scan.Started → ∀ name, StartsWith text name → StartsWith whole name)
    (lambdas : LambdasGood diag good text line) :
    (readWord inner scan text line).Entails diag
      (fun read => BraceClosed (text.take read.2) ∧ read.1.Reached whole)
      fun read => Good good (tokensSpots scan.tokens) → Good good (tokensSpots read.1.tokens) := by
  unfold readWord
  refine .seq (.require (here _)) fun length counted => ?_
  have parts : LambdasGood diag good (text.take length) line := by
    rw [← List.take_append_drop length text] at lambdas
    exact lambdas.ahead
  refine .ite (fun _ => .seq (.require (here _)) fun region found => ?_) fun _ =>
    .bind (pushWord_entails reads here sound (trim_take_chainLength counted) parts)
      fun next known => .pure known id
  obtain ⟨interior, after⟩ := region
  have behind := balanced_eq_some found
  have split : text = text.take length ++ '(' :: (interior ++ ')' :: after) := by
    rw [← behind, List.take_append_drop]
  refine .bind (readChain_entails reads here parts) fun chain comes =>
    .bind (readArguments_entails reads here fun front argument back listed earlier => ?_)
      fun arguments known => .bind (pushValue_entails here sound ⟨rfl, rfl, nofun, ?_, ?_⟩)
        fun next reached => .pure ⟨?_, reached⟩
          fun pushed good chained => pushed (Good.append_iff.mpr ⟨chained, good⟩)
  · obtain ⟨before, further, rfl, first⟩ := splitArguments_located listed earlier
    have cut : text =
        (text.take length ++ ['('] ++ before) ++ argument ++ (further ++ ')' :: after) := by
      conv_lhs => rw [split]
      simp
    rw [cut] at lambdas
    exact lambdas.inside ((comes.closed.concat (by decide)).append first)
  · rw [Token.parts, ← List.cons_append, Every.append_iff]
    exact ⟨comes.parts, known.2⟩
  · rintro _ _ _ ⟨⟩ unstarted
    refine fresh unstarted _ ?_
    rw [comes.base]
    conv in StartsWith text => rw [split]
    exact startsWith_of_chain (by decide) comes.identifier
  · show BraceClosed (text.take (length + interior.length + 2))
    have taken : text.take (length + interior.length + 2) =
        text.take length ++ '(' :: (interior ++ [')']) := by
      rw [Nat.add_assoc, List.take_add, behind, List.take_succ_cons, take_interior]
    rw [taken]
    exact comes.closed.append
      (.cons (by decide) ((closed_of_splitArguments known.1).concat (by decide)))

theorem readBlock_entails (closed : BraceClosed cursor.passed.reverse)
    (blocks : ∀ blanks interior, (∀ c ∈ blanks, isBlank c = true) →
      BlockAt (cursor.passed.reverse ++ cursor.ahead) (cursor.passed.reverse ++ blanks) interior →
        BodyGood diag good interior (line + (cursor.passed.reverse ++ blanks).count '\n')) :
    (readBlock inner cursor line).Entails diag
      (fun read => Cursor.Passes cursor read.2 ∧ Every Part.IsRead (bodyParts read.1))
      fun read => Good good (bodySpots read.1) := by
  obtain ⟨blanks, blank, ahead, passed⟩ := cursor.skipBlank_eq
  unfold readBlock
  refine .refusing (here _) fun _ => ?_
  rcases taken : cursor.skipBlank.takeBalanced '{' '}' with ⟨interior | interior, after⟩
  · exact .fail (here _)
  · obtain ⟨region, rest, behind⟩ := Cursor.takeBalanced_eq_some taken
    have block : BraceClosed interior := braceClosed_of_balanced region
    have count : cursor.skipBlank.newlinesPassed = (cursor.passed.reverse ++ blanks).count '\n' := by
      rw [Cursor.newlinesPassed, passed, ← List.count_reverse]
      simp
    have located : BlockAt (cursor.passed.reverse ++ cursor.ahead) (cursor.passed.reverse ++ blanks)
        interior := by
      refine ⟨closed.append (.blanks blank), block, after.ahead, ?_⟩
      rw [ahead, rest, List.append_assoc]
    rw [count]
    refine .bind (reads.body _ _ (blocks blanks interior blank located))
      fun body known => .pure ⟨?_, known⟩ id
    refine (Cursor.Passes.skipBlank cursor).trans
      ⟨'{' :: (interior ++ ['}']), ?_, behind, block.braces⟩
    rw [rest]
    simp

theorem readLambda_entails {params : List Char} {cursor : Cursor} (opened : '(' ∈ cursor.passed)
    (closed : Plain params → BraceClosed cursor.passed.reverse)
    (arrow : cursor.startsWith ['=', '>'] = true)
    (lambdas : LambdasGood diag good (cursor.passed.reverse ++ cursor.ahead) line) :
    (readLambda inner params cursor line).Entails diag
      (fun read => Plain params ∧ Cursor.Passes cursor read.2 ∧
        ∀ called, read.1.IsOperand called) fun read => Good good read.1.spots := by
  obtain ⟨rest, ahead⟩ := List.isPrefixOf_iff_prefix.mp arrow
  have two : cursor.ahead.take 2 = ['=', '>'] := by rw [← ahead]; rfl
  have passes : Cursor.Passes cursor (cursor.advance 2).skipBlank := by
    refine Cursor.Passes.trans (.advance ?_) (.skipBlank _)
    rw [two]
    exact .plain (by decide)
  obtain ⟨blanks, blank, _, passed⟩ := (cursor.advance 2).skipBlank_eq
  have front : (cursor.advance 2).skipBlank.passed.reverse =
      cursor.passed.reverse ++ '=' :: '>' :: blanks := by
    rw [passed, Cursor.advance_passed, two]
    simp
  unfold readLambda
  refine .refusing (here _) fun _ => .seq (.lift here) fun known read => ?_
  have plain : Plain params := plain_of_readParameters read
  refine .bind (readBlock_entails reads here (passes.closed (closed plain))
    fun blanks' interior blank' located => ?_) fun block behind =>
      .pure ⟨plain, passes.trans behind.1, fun _ => .lone rfl ?_⟩ id
  · rw [passes.whole, front] at located
    rw [front]
    refine lambdas [] _ interior located ⟨cursor.passed.reverse, blanks ++ blanks', ?_, ?_, ?_⟩
    · simp
    · exact List.mem_reverse.mpr opened
    · exact List.forall_mem_append.mpr ⟨blank, blank'⟩
  · rw [Token.parts, Every.append_iff]
    exact ⟨readParameterList_names read, behind.2⟩

theorem readParenthesized_entails (closed : BraceClosed cursor.passed.reverse)
    (lambdas : LambdasGood diag good (cursor.passed.reverse ++ cursor.ahead) line) :
    (readParenthesized inner cursor line).Entails diag
      (fun read => Cursor.Passes cursor read.2 ∧ ∀ called, read.1.IsOperand called)
      fun read => Good good read.1.spots := by
  unfold readParenthesized
  rcases taken : cursor.takeBalanced '(' ')' with ⟨interior | interior, after⟩
  · exact .fail (here _)
  · obtain ⟨_, ahead, passed⟩ := Cursor.takeBalanced_eq_some taken
    have passes (inner : BraceClosed interior) : Cursor.Passes cursor after.skipBlank :=
      (Cursor.Passes.takeBalanced taken (by decide) inner).trans (.skipBlank after)
    have whole : after.skipBlank.passed.reverse ++ after.skipBlank.ahead =
        cursor.passed.reverse ++ cursor.ahead := by
      rw [(Cursor.Passes.skipBlank after).whole, passed, ahead]
      simp
    refine .ite (fun arrow => ?_) fun _ => ?_
    · have opened : '(' ∈ after.skipBlank.passed := by
        obtain ⟨blanks, _, _, behind⟩ := after.skipBlank_eq
        rw [behind, passed]
        simp
      exact (readLambda_entails reads here opened
        (fun plain => (passes (.plain plain)).closed closed) arrow (by rwa [whole])).imp
          (fun read known => ⟨(passes (.plain known.1)).trans known.2.1, known.2.2⟩) fun _ _ => id
    · have part : LambdasGood diag good interior line := by
        have cut : cursor.passed.reverse ++ cursor.ahead =
            (cursor.passed.reverse ++ ['(']) ++ interior ++ (')' :: after.ahead) := by
          rw [ahead]
          simp
        rw [cut] at lambdas
        exact lambdas.inside (closed.concat (by decide))
      exact .bind (reads.expression _ _ here part) fun tokens inner =>
        .pure ⟨passes inner.1, fun _ => .lone rfl inner.2⟩ id

/-! ### Whole expressions -/

/-- **An expression closes its braces**, what is read of it is sound, and its lines are those of its
blocks. -/
theorem scanTokens_entails (skip : Nat) {passed : List Char}
    (sound : scan.IsSound (passed.reverse ++ text))
    (fresh : ¬scan.Started → skip = 0 ∧ ∀ c ∈ passed, isBlank c = true)
    (lambdas : LambdasGood diag good (passed.reverse ++ text) line)
    (closed : BraceClosed (passed.reverse ++ text.take skip)) :
    (scanTokens inner line skip scan passed text).Entails diag
      (fun next => BraceClosed (passed.reverse ++ text) ∧ next.IsSound (passed.reverse ++ text))
      fun next => Good good (tokensSpots scan.tokens) → Good good (tokensSpots next.tokens) := by
  induction text generalizing skip scan passed with
  | nil =>
    rw [scanTokens]
    rw [List.take_nil] at closed
    exact .done ⟨closed, sound⟩ id
  | cons c rest ih =>
    have moved : (c :: passed).reverse ++ rest = passed.reverse ++ c :: rest := by simp
    have next : LambdasGood diag good ((c :: passed).reverse ++ rest) line := by rwa [moved]
    rw [← moved] at sound ⊢
    cases skip with
    | succ skip =>
      rw [scanTokens]
      refine ih skip sound (fun unstarted => absurd (fresh unstarted).1 (Nat.succ_ne_zero _)) next ?_
      simpa using closed
    | zero =>
      rw [List.take_zero, List.append_nil] at closed
      have further (length : Nat) {scan : Scan}
          (reached : scan.Reached ((c :: passed).reverse ++ rest))
          (first : length = 0 → isPlain c = true) (taken : BraceClosed ((c :: rest).take length)) :=
        ih (length - 1) reached.1 (fun unstarted => absurd reached.2 unstarted) next (by
          rw [List.reverse_cons]
          exact closed_behind closed first taken)
      have pushed {token : Token} (length : Nat) (operand : ∀ called, token.IsOperand called)
          (first : length = 0 → isPlain c = true) (taken : BraceClosed ((c :: rest).take length)) :
          (scan.pushValue token line >>= fun scan =>
            scanTokens inner line (length - 1) scan (c :: passed) rest).Entails diag
            (fun next => BraceClosed ((c :: passed).reverse ++ rest) ∧
              next.IsSound ((c :: passed).reverse ++ rest)) fun next =>
              Good good token.spots → Good good (tokensSpots scan.tokens) →
                Good good (tokensSpots next.tokens) :=
        .bind (pushValue_entails here sound (operand _)) fun scan' reached =>
          (further length reached first taken).imp (fun _ => id)
            fun _ _ holds added token earlier => holds (added token earlier)
      rw [scanTokens]
      refine .ite (fun blank => ?blank) fun _ => .ite (fun quoted => ?quoted) fun _ =>
        .ite (fun opened => ?opening) fun _ => .ite (fun _ => ?object) fun _ =>
          .ite (fun _ => ?list) fun _ => .ite (fun digits => ?digits) fun _ => ?_
      case blank =>
        refine ih 0 sound (fun unstarted => ⟨rfl, List.forall_mem_cons.mpr
          ⟨blank, (fresh unstarted).2⟩⟩) next ?_
        rw [List.reverse_cons, List.take_zero, List.append_nil]
        exact closed.concat (isPlain_of_isBlank blank)
      case quoted =>
        subst quoted
        refine .seq (.require (here _)) fun literal found => ?_
        obtain ⟨body, closes, -, length⟩ := decodeFrom_eq_some found
        have cut := (closing_eq_some closes (by decide)).1
        dsimp only
        rw [length]
        refine (pushed (body.length + 2) (fun _ => .lone rfl (.single trivial)) (by omega)
          ?_).imp (fun _ => id) fun _ _ holds => holds .nil
        rw [List.take_succ_cons, cut, take_interior]
        exact braceClosed_of_closing closes
      case opening =>
        refine .bind (readParenthesized_entails reads here closed lambdas)
          fun read known => ?_
        obtain ⟨⟨taken, ahead, behind, inside⟩, operand⟩ := known
        have length : read.2.position - Cursor.position ⟨passed, c :: rest⟩ = taken.length := by
          rw [Cursor.position, behind, List.length_append, List.length_reverse]
          exact Nat.add_sub_cancel _ _
        have front : (c :: rest).take taken.length = taken := by
          rw [show c :: rest = taken ++ read.2.ahead from ahead, List.take_left]
        dsimp only
        rw [length]
        exact pushed _ operand (fun _ => by rw [opened]; decide) (by rwa [front])
      case object | list =>
        exact .seq (readLiteral_entails here _ _) fun read known =>
          (pushed read.2 (fun _ => .lone rfl (.single trivial)) (by omega) known.2).imp
            (fun _ => id) fun _ _ holds => holds .nil
      case digits =>
        exact .bind (readNumber_entails here digits) fun read known =>
          pushed read.2 known.2.2 (by omega) known.2.1
      cases found : Operator.longestAt? (c :: rest) with
      | some op =>
        have whole := Operator.longestAt?_eq_some found
        refine .bind (pushOperator_entails here sound op) fun scan' reached =>
          (further op.length reached (fun none => ?_) ?_).imp (fun _ => id)
            fun _ _ holds added earlier => holds (added earlier)
        · cases op <;> exact absurd none (by decide)
        · rw [whole, Operator.length, ← String.length_toList, List.take_left]
          exact .plain (isPlain_of_mem_spelling op)
      | none =>
        refine .ite (fun word => .bind (readWord_entails reads here sound
          (fun unstarted name starts => ?_) ?_) fun read known => (further read.2 known.2
            (fun _ => isPlain_of_isWordChar word) known.1).imp (fun _ => id)
              fun _ _ holds added earlier => holds (added earlier)) fun _ => .fail (here _)
        · rw [moved]
          exact starts.behind_blanks fun c member =>
            (fresh unstarted).2 c (List.mem_reverse.mp member)
        · exact lambdas.behind closed

theorem readExpression_entails (lambdas : LambdasGood diag good text line) :
    (readExpression inner text line).Entails diag
      (fun tokens => BraceClosed text ∧ Every Part.IsRead (expressionParts tokens) ∧
        ∀ name ∈ (Kind.ofTokens tokens).callee?, StartsWith text name)
      fun tokens => Good good (tokensSpots tokens) := by
  have start : Scan.IsSound text ⟨[], false⟩ := ⟨.nil, nofun, nofun, nofun, nofun⟩
  refine .bind (scanTokens_entails reads here 0 start (fun _ => ⟨rfl, nofun⟩) lambdas .nil)
    fun scan known => .refusing (here _) fun ended => .pure
      ⟨known.1, known.2.expression ?_, known.2.callee⟩ fun good => ?_
  · rw [Bool.or_eq_true, not_or, Bool.not_eq_true', Bool.not_eq_false] at ended
    exact ended.1
  have all := Good.tokens_iff.mp (good .nil)
  exact Good.tokens_iff.mpr fun token member => all token (List.mem_reverse.mp member)

end Readers

end TypedScript
