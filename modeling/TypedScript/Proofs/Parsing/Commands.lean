/-
**Statements and their blocks.** The lines of a statement are its own one and those of its blocks. A
block behind an arrow may be counted from anywhere before it, any other block is counted from the
start of the statement, words in front of it apart. All parts of a statement are of the known kind,
and a call starts with its name.

* `readCommand_entails`, `readElse_entails`: single statements.
* `parse_good`, `parse_sound`: the lines and the parts of a script.
-/

import Mathlib.Data.List.Infix
import TypedScript.Proofs.Parsing.Blocks
import TypedScript.Proofs.Splitting.Cuts

namespace TypedScript

open Text

variable {inner : Inner}

def Leading (text : List Char) : Prop :=
  ∀ c ∈ text, isWordChar c = true ∨ isBlank c = true

theorem Leading.closed {text : List Char} (leading : Leading text) : BraceClosed text :=
  .plain fun c member => (leading c member).elim isPlain_of_isWordChar isPlain_of_isBlank

theorem Leading.append {front back : List Char} (first : Leading front) (second : Leading back) :
    Leading (front ++ back) :=
  List.forall_mem_append.mpr ⟨first, second⟩

/-- Every block of a statement is read into good spots. Newlines are counted from behind some words
on, and for a block behind an arrow from anywhere. -/
def BlocksGood (diag : Diagnostic → Prop) (good : Spot → Prop) (text : List Char) (line : Nat) :
    Prop :=
  ∀ skipped before interior, BlockAt text (skipped ++ before) interior →
    EndsInArrow before ∨ Leading skipped → BodyGood diag good interior (line + before.count '\n')

/-- What is known of a statement before it is read. -/
structure StatementGood (diag : Diagnostic → Prop) (good : Spot → Prop) (statement : Statement) :
    Prop where
  here : Here diag statement.line
  own : ∀ callee, (∀ name ∈ callee, StartsWith statement.text name) → good ⟨statement.line, callee⟩
  blocks : BlocksGood diag good statement.text statement.line

section Readers

variable {diag : Diagnostic → Prop} {good : Spot → Prop} {inner : Inner} {line : Nat}
  {read : List Stmt}

namespace BlocksGood

variable {text front part back : List Char}

theorem lambdas (blocks : BlocksGood diag good text line) : LambdasGood diag good text line :=
  fun skipped before interior located arrow => blocks skipped before interior located (.inl arrow)

theorem inside (blocks : BlocksGood diag good (front ++ part ++ back) line)
    (leading : Leading front) : BlocksGood diag good part line := by
  rintro skipped before interior ⟨first, second, after, rfl⟩ kind
  refine blocks (front ++ skipped) before interior ⟨?_, second, after ++ back, ?_⟩
    (kind.imp_right leading.append)
  · rw [List.append_assoc]
    exact leading.closed.append first
  · simp only [List.append_assoc, List.cons_append]

theorem trim (blocks : BlocksGood diag good text line) : BlocksGood diag good (trim text) line := by
  obtain ⟨before, after, first, _, whole⟩ := trim_eq text
  rw [whole] at blocks
  exact blocks.inside fun c member => .inr (first c member)

theorem behind (blocks : BlocksGood diag good (front ++ part) line) (leading : Leading front) :
    BlocksGood diag good part line := by
  rw [← List.append_nil (front ++ part)] at blocks
  exact blocks.inside leading

theorem drop (blocks : BlocksGood diag good text line) {count : Nat}
    (leading : Leading (text.take count)) : BlocksGood diag good (text.drop count) line := by
  rw [← List.take_append_drop count text] at blocks
  exact blocks.behind leading

end BlocksGood

theorem Keyword.take_of_leading {text : List Char} {keyword : Keyword}
    (leads : Keyword.leading? text = some keyword) :
    text.take keyword.spelling.length = keyword.spelling.toList := by
  have same := List.find?_some leads
  rw [beq_iff_eq] at same
  rw [same, ← String.length_toList, same, take_leadingWord]

theorem Keyword.leading_spelling (keyword : Keyword) : Leading keyword.spelling.toList := by
  cases keyword <;> exact fun c member => .inl (by revert c; decide)

/-! ### Declarations, modifications and expressions -/

theorem plain_of_splitDeclaration {text type name : List Char}
    (cut : splitDeclaration text = some (type, name)) : Plain text := by
  obtain ⟨front, found, rfl, typed, named⟩ := splitDeclaration_eq_some cut
  have continued {c : Char} (next : continuesDeclared c = true) : isPlain c = true :=
    isPlain_of_class next (by decide)
  refine plain_of_splitLastBlank found ?_
    fun c member => continued (continuesDeclared_of_isDeclaredName named c member)
  obtain ⟨blanks, blank, whole⟩ := trimEnd_append_blanks front
  rw [whole]
  refine Plain.append ?_ (.blanks blank)
  cases type : trimEnd front with
  | nil => exact nofun
  | cons c rest =>
    rw [type, isDeclaredType, Bool.and_eq_true] at typed
    refine List.forall_mem_cons.mpr ⟨isPlain_of_class typed.1 (by decide), fun d member => ?_⟩
    have known := List.all_eq_true.mp typed.2 d member
    simp only [Bool.or_eq_true] at known
    rcases known with (next | sign) | blank
    · exact continued next
    · have signs : ∀ d ∈ "<>,|".toList, isPlain d = true := by decide
      exact signs d (List.contains_iff_mem.mp sign)
    · exact isPlain_of_isBlank blank

/-- What a statement that was read has from its text. -/
structure Stmt.IsRead (text : List Char) (line : Nat) (stmt : Stmt) : Prop where
  parts : Every Part.IsRead stmt.kind.parts
  line_eq : stmt.line = line
  callee : ∀ name ∈ stmt.kind.callee?, StartsWith text name

theorem Cursor.Passes.keyword {text : List Char} {keyword : Keyword}
    (leads : Keyword.leading? text = some keyword) :
    Passes (Cursor.start text) ((Cursor.start text).advance keyword.spelling.length) := by
  refine .advance ?_
  show BraceClosed (text.take keyword.spelling.length)
  rw [Keyword.take_of_leading leads]
  exact (Keyword.leading_spelling _).closed

theorem BlocksGood.behind_keyword {text : List Char} (blocks : BlocksGood diag good text line)
    {keyword : Keyword} (leads : Keyword.leading? text = some keyword) :
    BlocksGood diag good (Text.trim (text.drop keyword.spelling.length)) line := by
  refine (blocks.drop ?_).trim
  rw [Keyword.take_of_leading leads]
  exact Keyword.leading_spelling _

theorem leadingWord_append_blanks {text blanks : List Char} (all : ∀ c ∈ blanks, isBlank c = true) :
    leadingWord (text ++ blanks) = leadingWord text := by
  refine takeWhile_append_of_ends fun c head => ?_
  exact isWordChar_of_isBlank (all c (List.mem_of_head? head))

theorem leading_of_else {text : List Char} (leads : leadingWord text = "else".toList) :
    Leading ((trim text).take "else".length) := by
  have whole : text = "else".toList ++ text.dropWhile isWordChar := by
    rw [← leads]
    exact List.takeWhile_append_dropWhile.symm
  have start : trimStart text = text := by
    refine trimStart_eq_self ?_
    rw [whole]
    rintro _ ⟨⟩
    decide
  obtain ⟨blanks, _, same⟩ := trimEnd_append_blanks text
  have front : trim text <+: text := by
    rw [trim, start]
    exact ⟨blanks, same.symm⟩
  have word : text.take "else".length = "else".toList := by
    rw [whole]
    rfl
  intro c member
  have among := (front.take "else".length).subset member
  rw [word] at among
  exact Keyword.leading_spelling .otherwise c among

section Commands

variable {text : List Char} (reads : inner.Entails diag good) (here : Here diag line)

include here

theorem ensureEnd_entails (cursor : Cursor) :
    (ensureEnd cursor line).Entails diag (fun _ => True) fun _ => True := by
  unfold ensureEnd
  exact .ite (fun _ => .done trivial trivial) fun _ => .fail (here _)

theorem readImport_entails :
    (readImport text line).Entails diag (Stmt.IsRead text line)
      fun stmt => Good good stmt.kind.spots := by
  unfold readImport
  exact .refusing (here _) fun _ => .refusing (here _) fun _ => .seq (ensureEnd_entails here _)
    fun _ _ => .pure ⟨.nil, rfl, nofun⟩ .nil

include reads

theorem readAssignment_entails (lambdas : LambdasGood diag good text line) (constant : Bool) :
    (readAssignment inner text line constant).Entails diag
      (fun stmt => stmt.IsRead text line ∧ (constant = true → stmt.kind.callee? = none))
      fun stmt => Good good stmt.kind.spots := by
  unfold readAssignment
  rcases cut : splitAssignment text with _ | ⟨left, op, right⟩
  · refine .refusing (here _) fun varies => .bind (readExpression_entails reads here lambdas)
      fun tokens known => .pure ⟨⟨ofTokens_parts known.2.1, rfl, known.2.2⟩,
        fun constant => absurd constant varies⟩ fun holds => ?_
    rw [← ofTokens_spots] at holds
    exact holds
  · rw [splitAssignment_eq_some cut] at lambdas
    have before : LambdasGood diag good (trim left) line := by
      rw [List.append_assoc] at lambdas
      exact lambdas.ahead.trim
    have behind (closed : BraceClosed (trim left)) : LambdasGood diag good (trim right) line :=
      (lambdas.behind (closed.of_trim.append (.plain (isPlain_of_mem_spelling op)))).trim
    refine .refusing (here _) fun _ => ?_
    rcases declared : splitDeclaration (trim left) with _ | ⟨type, name⟩
    · refine .refusing (here _) fun _ => .bind (readChain_entails reads here before)
        fun chain comes => .bind (readExpression_entails reads here (behind comes.closed))
          fun tokens known => .pure ⟨⟨?_, rfl, nofun⟩, fun _ => rfl⟩
            fun holds first => Good.append_iff.mpr ⟨first, holds⟩
      show Every Part.IsRead (.base chain.base :: (stepsParts chain.steps ++ expressionParts tokens))
      rw [← List.cons_append, Every.append_iff]
      exact ⟨comes.parts, known.2.1⟩
    · have closed : BraceClosed (trim left) := .plain (plain_of_splitDeclaration declared)
      exact .refusing (here _) fun _ => .seq (.lift here) fun type _ =>
        .bind (readExpression_entails reads here (behind closed)) fun tokens known =>
          .pure ⟨⟨Every.cons_iff.mpr ⟨isNameChar_of_splitDeclaration declared, known.2.1⟩, rfl,
            nofun⟩, fun _ => rfl⟩ id

/-! ### Statements with a keyword -/

variable (blocks : BlocksGood diag good text line)

include blocks

theorem readReturn_entails (leads : Keyword.leading? text = some .returns) :
    (readReturn inner text line).Entails diag (Stmt.IsRead text line)
      fun stmt => Good good stmt.kind.spots := by
  have rest := (blocks.behind_keyword leads).lambdas
  unfold readReturn
  exact .ite (fun _ => .done ⟨.nil, rfl, nofun⟩ .nil) fun _ =>
    .bind (readExpression_entails reads here rest) fun tokens known =>
      .pure ⟨known.2.1, rfl, nofun⟩ id

theorem readConstant_entails (leads : Keyword.leading? text = some .constant) :
    (readConstant inner text line).Entails diag (Stmt.IsRead text line)
      fun stmt => Good good stmt.kind.spots := by
  have rest := (blocks.behind_keyword leads).lambdas
  have declares : (readAssignment inner (trim (text.drop "const".length)) line true).Entails diag
      (Stmt.IsRead text line) fun stmt => Good good stmt.kind.spots := by
    refine (readAssignment_entails reads here rest true).imp (fun stmt known => ?_) fun _ _ => id
    refine ⟨known.1.parts, known.1.line_eq, ?_⟩
    rw [known.2 rfl]
    exact nofun
  unfold readConstant
  dsimp only
  cases Keyword.leading? (trim (text.drop "const".length)) with
  | none => exact declares
  | some keyword => exact .ite (fun _ => declares) fun _ => .fail (here _)

theorem readBlock_entails_of_start {cursor : Cursor}
    (passes : Cursor.Passes (Cursor.start text) cursor) :
    (readBlock inner cursor line).Entails diag (fun read => Every Part.IsRead (bodyParts read.1))
      fun read => Good good (bodySpots read.1) := by
  refine (readBlock_entails reads here (passes.closed .nil)
    fun blanks interior blank located => ?_).imp (fun _ => And.right) fun _ _ => id
  rw [passes.whole] at located
  exact blocks [] _ interior located (.inr nofun)

theorem readFunction_entails (leads : Keyword.leading? text = some .function) :
    (readFunction inner text line).Entails diag (Stmt.IsRead text line)
      fun stmt => Good good stmt.kind.spots := by
  have start : Cursor.Passes (Cursor.start text) ((Cursor.start text).advance "func".length) := by
    rw [show "func" = Keyword.function.spelling from rfl]
    exact .keyword leads
  unfold readFunction
  dsimp only
  generalize (Cursor.start text).advance "func".length = cursor at start ⊢
  generalize header : (cursor.ahead.takeWhile fun c => c != '(') = name
  have taken : cursor.ahead.take name.length = name := by
    rw [← header]
    exact (List.prefix_iff_eq_take.mp (List.takeWhile_prefix _)).symm
  refine .refusing (here _) fun _ => .seq (.require (here _)) fun split cut =>
    .refusing (here _) fun named => .seq (.lift here) fun returns read => ?_
  rw [Bool.not_eq_true', Bool.not_eq_false] at named
  have plain : Plain name := by
    refine Plain.of_trim (plain_of_splitLastBlank cut (plain_of_readType read).of_trim ?_)
    exact plain_of_isIdentifier named
  have passed : Cursor.Passes cursor (cursor.advance name.length) :=
    .advance (by rw [taken]; exact .plain plain)
  rcases region : (cursor.advance name.length).takeBalanced '(' ')' with
    ⟨interior | interior, after⟩
  · exact .fail (here _)
  · refine .seq (.lift here) fun params listed => ?_
    have closes : Cursor.Passes (cursor.advance name.length) after :=
      .takeBalanced region (by decide) (.plain (plain_of_readParameters listed))
    refine .bind (readBlock_entails_of_start reads here blocks ((start.trans passed).trans closes))
      fun block body => .seq (ensureEnd_entails here _) fun _ _ => .pure ⟨?_, rfl, nofun⟩ id
    refine Every.cons_iff.mpr ⟨?_, Every.append_iff.mpr ⟨readParameterList_names listed, body⟩⟩
    rw [Part.IsRead, String.toList_ofList]
    exact isNameChar_of_isIdentifier named

theorem readConditional_entails {keyword : Keyword} (leads : Keyword.leading? text = some keyword) :
    (readConditional inner keyword text line).Entails diag
      (fun read => Every Part.IsRead (expressionParts read.1 ++ bodyParts read.2))
      fun read => Good good (tokensSpots read.1) ∧ Good good (bodySpots read.2) := by
  have start : Cursor.Passes (Cursor.start text)
      ((Cursor.start text).advance keyword.spelling.length).skipBlank :=
    .trans (.keyword leads) (.skipBlank _)
  unfold readConditional
  generalize ((Cursor.start text).advance keyword.spelling.length).skipBlank = cursor at start ⊢
  refine .refusing (here _) fun _ => ?_
  rcases taken : cursor.takeBalanced '(' ')' with ⟨interior | interior, after⟩
  · exact .fail (here _)
  · obtain ⟨_, ahead, _⟩ := Cursor.takeBalanced_eq_some taken
    have part : LambdasGood diag good interior line := by
      have lambdas := blocks.lambdas
      have whole : text = (cursor.passed.reverse ++ ['(']) ++ interior ++ (')' :: after.ahead) := by
        rw [show text = cursor.passed.reverse ++ cursor.ahead from start.whole.symm, ahead]
        simp
      rw [whole] at lambdas
      exact lambdas.inside ((start.closed .nil).concat (by decide))
    exact .bind (reads.expression _ _ here part) fun condition tested =>
      .bind (readBlock_entails_of_start reads here blocks
        (start.trans (.takeBalanced taken (by decide) tested.1))) fun block body =>
          .seq (ensureEnd_entails here _) fun _ _ =>
            .pure (Every.append_iff.mpr ⟨tested.2, body⟩) fun body tokens => ⟨tokens, body⟩

/-- **A statement has the lines of its blocks**, known parts, and starts with what it calls. -/
theorem readCommand_entails :
    (readCommand inner text line).Entails diag (Stmt.IsRead text line)
      fun stmt => Good good stmt.kind.spots := by
  have inside := blocks.trim
  have assigns : (readAssignment inner (trim text) line false).Entails diag
      (Stmt.IsRead (trim text) line) fun stmt => Good good stmt.kind.spots :=
    (readAssignment_entails reads here inside.lambdas false).imp (fun _ => And.left) fun _ _ => id
  suffices trimmed : (readCommand inner text line).Entails diag (Stmt.IsRead (trim text) line)
      fun stmt => Good good stmt.kind.spots from trimmed.imp (fun stmt known =>
        ⟨known.parts, known.line_eq, fun name called => (known.callee name called).of_trim⟩)
          fun _ _ => id
  unfold readCommand
  dsimp only
  rcases leads : Keyword.leading? (trim text) with _ | keyword
  · exact assigns
  · cases keyword with
    | returns => exact readReturn_entails reads here inside leads
    | constant => exact readConstant_entails reads here inside leads
    | await => exact assigns
    | imports => exact readImport_entails here
    | function => exact .ite (fun _ => readFunction_entails reads here inside leads) fun _ => assigns
    | ifThen =>
      refine .bind (readConditional_entails reads here inside leads) fun read known =>
        .pure ⟨?_, rfl, nofun⟩ fun holds => ?_
      · show Every Part.IsRead (expressionParts read.1 ++ (bodyParts read.2 ++ []))
        rwa [List.append_nil]
      · exact Good.append_iff.mpr ⟨holds.1, Good.append_iff.mpr ⟨holds.2, .nil⟩⟩
    | otherwise => exact .fail (here _)
    | loop =>
      exact .bind (readConditional_entails reads here inside leads) fun read known =>
        .pure ⟨known, rfl, nofun⟩ Good.append_iff.mpr

theorem readElse_entails (own : good ⟨line, none⟩) (leads : leadingWord text = "else".toList) :
    (readElse inner text line).Entails diag (fun branch => Every Part.IsRead branch.parts)
      fun branch => Good good branch.spots := by
  have behind : BlocksGood diag good (trimStart ((trim text).drop "else".length)) line := by
    have dropped := blocks.trim.drop (leading_of_else leads)
    rw [← List.takeWhile_append_dropWhile (p := isBlank) (l := (trim text).drop _)] at dropped
    exact dropped.behind fun c member => .inr (List.mem_takeWhile_imp member)
  unfold readElse
  refine .ite (fun further => .bind (readConditional_entails reads here behind.trim ?_)
    fun read known => .pure ?_ fun holds => ?_) fun _ =>
      .bind (readBlock_entails_of_start reads here behind ⟨[], rfl, rfl, .nil⟩) fun block body =>
        .seq (ensureEnd_entails here _) fun _ _ => .pure body id
  · obtain ⟨blanks, blank, same⟩ := trimEnd_append_blanks (trimStart ((trim text).drop "else".length))
    rw [Keyword.leading?, same, leadingWord_append_blanks blank] at further
    rwa [Keyword.leading?, trim, trimStart_eq_self (head_trimStart _)]
  · show Every Part.IsRead (expressionParts read.1 ++ (bodyParts read.2 ++ []))
    rwa [List.append_nil]
  · exact Good.cons_iff.mpr ⟨own, Good.append_iff.mpr ⟨holds.1,
      Good.append_iff.mpr ⟨holds.2, .nil⟩⟩⟩

end Commands

/-! ### Sequences of statements -/

theorem attachElse_entails (good : Spot → Prop) (here : Here diag line) {branch : Otherwise}
    (added : Every Part.IsRead branch.parts) (earlier : Every Part.IsRead (bodyParts read)) :
    (attachElse branch line read).Entails diag (fun next => Every Part.IsRead (bodyParts next))
      fun next =>
        Good good branch.spots → Good good (bodySpots read) → Good good (bodySpots next) := by
  have dangling : Reading.Entails diag (fun next => Every Part.IsRead (bodyParts next))
      (fun next => Good good branch.spots → Good good (bodySpots read) → Good good (bodySpots next))
      ⟨[⟨.danglingElse, line⟩], .ok read⟩ := by
    refine ⟨List.forall_mem_singleton.mpr (here _), nofun, ?_, fun _ _ none => absurd none (by simp)⟩
    rintro _ ⟨⟩
    exact earlier
  cases read with
  | nil => exact dangling
  | cons last others =>
    rw [attachElse]
    cases attached : last.attach? branch with
    | none => exact dangling
    | some joined =>
      rw [Every.body_iff, List.forall_mem_cons] at earlier
      refine .done ?_ fun added before => ?_
      · rw [Every.body_iff, List.forall_mem_cons, Stmt.attach?_parts attached, Every.append_iff]
        exact ⟨⟨earlier.1, added⟩, earlier.2⟩
      · rw [Good.body_iff, List.forall_mem_cons] at before ⊢
        rw [Stmt.attach?_spots attached, Good.append_iff]
        exact ⟨⟨before.1, added⟩, before.2⟩

theorem readStatement_entails (reads : inner.Entails diag good)
    (earlier : Every Part.IsRead (bodyParts read)) {statement : Statement}
    (known : StatementGood diag good statement) :
    (readStatement inner read statement).Entails diag
      (fun next => Every Part.IsRead (bodyParts next))
      fun next => Good good (bodySpots read) → Good good (bodySpots next) := by
  unfold readStatement
  refine .ite (fun _ => .done earlier id) fun _ =>
    .ite (fun leads => .bind (readElse_entails reads known.here known.blocks (known.own none nofun)
      leads).recover fun branch? added => ?_) fun _ =>
        .bind (readCommand_entails reads known.here known.blocks).recover fun stmt? comes => ?_
  · cases branch? with
    | none => exact .pure earlier fun found => absurd found (by simp)
    | some branch =>
      refine (attachElse_entails good known.here (added branch rfl) earlier).imp (fun _ => id)
        fun next _ holds found => ?_
      obtain ⟨_, same, first⟩ := found
      obtain rfl := Option.some.inj same
      exact holds first
  · cases stmt? with
    | none => exact .pure earlier fun found => absurd found (by simp)
    | some stmt =>
      obtain ⟨parts, line, callee⟩ := comes stmt rfl
      refine .pure ?_ fun found before => ?_
      · rw [Every.body_iff, List.forall_mem_cons, ← Every.body_iff]
        exact ⟨parts, earlier⟩
      obtain ⟨_, same, first⟩ := found
      obtain rfl := Option.some.inj same
      rw [Good.body_iff, List.forall_mem_cons, ← Good.body_iff]
      refine ⟨Good.cons_iff.mpr ⟨?_, first⟩, before⟩
      rw [line]
      exact known.own _ callee

theorem readStatements_entails (reads : inner.Entails diag good)
    (earlier : Every Part.IsRead (bodyParts read)) {statements : List Statement}
    (known : ∀ statement ∈ statements, StatementGood diag good statement) :
    (readStatements inner read statements).Entails diag
      (fun body => Every Part.IsRead (bodyParts body))
      fun body => Good good (bodySpots read) → Good good (bodySpots body) := by
  induction statements generalizing read with
  | nil =>
    rw [readStatements]
    refine .done ?_ fun holds => ?_
    · rw [Every.body_iff] at earlier ⊢
      exact fun stmt member => earlier stmt (List.mem_reverse.mp member)
    · rw [Good.body_iff] at holds ⊢
      exact fun stmt member => holds stmt (List.mem_reverse.mp member)
  | cons statement rest ih =>
    obtain ⟨one, all⟩ := List.forall_mem_cons.mp known
    exact .bind (readStatement_entails reads earlier one) fun read earlier =>
      (ih earlier all).imp (fun _ => id) fun _ _ later before start => later (before start)

/-- Readers that give known parts, and good spots from good blocks, whatever is good. -/
def Inner.IsSound (inner : Inner) : Prop :=
  ∀ diag good, inner.Entails diag good

/-- **A sequence of statements has the lines of its statements**, and known parts. What the splitter
reported is known when the spots are looked at. -/
theorem readBody_entails (reads : inner.IsSound) {text : List Char}
    (missing : ∀ found ∈ (splitStatements text line).2, diag found)
    (known : ∀ statement ∈ (splitStatements text line).1,
      StatementGood diag (fun spot => (splitStatements text line).2 = [] → good spot) statement) :
    (readBody inner text line).Entails diag (fun body => Every Part.IsRead (bodyParts body))
      fun body => Good good (bodySpots body) := by
  refine .bind (.collect missing) fun _ _ =>
    (readStatements_entails (reads _ _) .nil known).imp (fun _ => id) fun body _ holds none => ?_
  exact fun spot member => holds nofun spot member none

end Readers

/-- **Readers for text inside brackets**, whatever depth they were built for. -/
theorem Inner.upTo_isSound (depth : Nat) : (Inner.upTo depth).IsSound := by
  induction depth with
  | zero => exact fun diag good => ⟨fun _ _ _ _ => .exhausted, fun _ _ _ => .exhausted⟩
  | succ depth ih =>
    refine fun diag good => ⟨fun text line here lambdas => ?_, fun text line known => known depth⟩
    exact (readExpression_entails (ih diag good) here lambdas).imp
      (fun _ known => ⟨known.1, known.2.1⟩) fun _ _ => id

theorem BodyGood.of_statements {diag : Diagnostic → Prop} {good : Spot → Prop} {text : List Char}
    {line : Nat} (missing : ∀ found ∈ (splitStatements text line).2, diag found)
    (known : ∀ statement ∈ (splitStatements text line).1,
      StatementGood diag (fun spot => (splitStatements text line).2 = [] → good spot) statement) :
    BodyGood diag good text line :=
  fun depth => readBody_entails (Inner.upTo_isSound depth) missing known

theorem BodyGood.imp {diag : Diagnostic → Prop} {good good' : Spot → Prop} {text : List Char}
    {line : Nat} (known : BodyGood diag good text line) (weaker : ∀ spot, good spot → good' spot) :
    BodyGood diag good' text line :=
  fun depth => (known depth).imp (fun _ => id)
    fun _ _ holds spot member => weaker spot (holds spot member)

theorem BlockAt.length_lt {text before interior : List Char}
    (located : BlockAt text before interior) : interior.length < text.length := by
  obtain ⟨_, _, after, rfl⟩ := located
  simp only [List.length_append, List.length_cons]
  omega

/-- **What holds of a text and of the blocks of its statements** holds of all blocks in it, so that
all that is read of it is good. -/
theorem BodyGood.of_invariant {diag : Diagnostic → Prop} {good : Spot → Prop}
    (holds : List Char → Nat → Prop)
    (missing : ∀ text line, holds text line → ∀ found ∈ (splitStatements text line).2, diag found)
    (own : ∀ text line, holds text line → ∀ statement ∈ (splitStatements text line).1,
      Here diag statement.line ∧ ∀ callee, good ⟨statement.line, callee⟩)
    (inside : ∀ text line, holds text line → ∀ statement ∈ (splitStatements text line).1,
      ∀ skipped before interior, BlockAt statement.text (skipped ++ before) interior →
        holds interior (statement.line + before.count '\n'))
    (text : List Char) (line : Nat) (start : holds text line) : BodyGood diag good text line := by
  induction length : text.length using Nat.strong_induction_on generalizing text line with
  | _ bound ih =>
    refine .of_statements (missing text line start) fun statement member => ?_
    obtain ⟨here, spot⟩ := own text line start statement member
    refine ⟨here, fun callee _ _ => spot callee, fun skipped before interior located _ => ?_⟩
    have shorter := located.length_lt
    have fits := length_of_mem_splitStatements member
    exact (ih interior.length (by omega) interior _
      (inside text line start statement member skipped before interior located) rfl).imp
        fun _ known _ => known

theorem bodyGood_any (text : List Char) (line : Nat) :
    BodyGood (fun _ => True) (fun _ => True) text line :=
  .of_invariant (fun _ _ => True) (fun _ _ _ _ _ => trivial)
    (fun _ _ _ _ _ => ⟨fun _ => trivial, fun _ => trivial⟩) (fun _ _ _ _ _ _ _ _ _ => trivial)
    text line trivial

/-- **What a script is read into**, if its text is read into good spots. -/
theorem parse_good {diag : Diagnostic → Prop} {good : Spot → Prop} {source : List Char}
    (known : BodyGood diag good source 1) :
    (∀ found ∈ (parse source).diagnostics, diag found) ∧
      Good good (bodySpots (parse source).statements) := by
  have entails := known source.length
  unfold parse Inner.within
  dsimp only
  split
  · rename_i statements quiet outcome
    exact ⟨nofun, entails.sound statements outcome quiet⟩
  · exact ⟨entails.collected, .nil⟩

/-! ### Parts -/

/-- **Statements that were read have known parts**, also if others could not be read. -/
theorem readBody_read {line : Nat} (reads : inner.IsSound) (text : List Char) (body : List Stmt)
    (read : (readBody inner text line).outcome = .ok body) :
    Every Part.IsRead (bodyParts body) := by
  have entails : (readBody inner text line).Entails (fun _ => True)
      (fun body => Every Part.IsRead (bodyParts body))
      fun body => Good (fun _ => True) (bodySpots body) := by
    refine readBody_entails reads (fun _ _ => trivial) fun statement _ =>
      ⟨fun _ => trivial, fun _ _ _ => trivial, fun _ _ interior _ _ => ?_⟩
    exact (bodyGood_any interior _).imp fun _ _ _ => trivial
  exact entails.kind body read

theorem readBody_gives {line : Nat} (reads : inner.IsSound) (text : List Char) (body : List Stmt)
    (read : (readBody inner text line).outcome = .ok body) : Sound (bodyParts body) :=
  (readBody_read reads text body read).sound

/-- **What is known of every part of a script that was read.** -/
theorem parse_read (source : List Char) :
    Every Part.IsRead (bodyParts (parse source).statements) := by
  unfold parse
  dsimp only
  split
  · rename_i outcome
    exact readBody_read (Inner.upTo_isSound _) source _ outcome
  · exact .nil

theorem parse_sound (source : List Char) : Sound (bodyParts (parse source).statements) :=
  (parse_read source).sound

def Part.accessName? : Part → Option String
  | .base name | .property name => some name
  | _ => none

/-- **Names in a script can be used.** At any depth, what is accessed, called or modified is named by
an identifier, and a property by a word. An access without steps has no reserved name. -/
theorem names_usable (source : List Char) :
    let parts := bodyParts (parse source).statements
    (∀ name, .base name ∈ parts → isIdentifier name.toList = true) ∧
    (∀ name, .property name ∈ parts → name.toList ≠ [] ∧ ∀ c ∈ name.toList, isWordChar c = true) ∧
    ∀ tokens, .expression tokens ∈ parts →
      ∀ token ∈ tokens, ∀ name ∈ token.soleName?, isReserved name = false :=
  ⟨fun _ => parse_read source _, fun _ => parse_read source _,
    fun _ member => (parse_read source _ member).2⟩

/-- The names in an index, in a call, and in the lambda that is passed to it. -/
theorem names_usable_nested :
    let parts := bodyParts (parse "f(a[b.c], () => \x7breturn d;\x7d);".toList).statements
    parts.filterMap Part.accessName? = ["f", "a", "b", "c", "d"] ∧
      (∀ name, .base name ∈ parts → isIdentifier name.toList = true) ∧
      ∀ name, .property name ∈ parts →
        name.toList ≠ [] ∧ ∀ c ∈ name.toList, isWordChar c = true :=
  ⟨by decide +kernel, (names_usable _).1, (names_usable _).2.1⟩

/-- **Reserved words are only refused alone.** They can be called, modified, and accessed with
further steps, and a property can be a numeral. -/
theorem reserved_names_accessed :
    let source := "any y = while(1);\nany z = true.x;\nnull = y.1;".toList
    (parse source).diagnostics = [] ∧
    (bodyParts (parse source).statements).filterMap Part.accessName? =
      ["while", "true", "x", "null", "y", "1"] ∧
    (∀ name ∈ ["while", "true", "null"], isReserved name = true) ∧
    isIdentifier "1".toList = false := by
  decide +kernel

end TypedScript
