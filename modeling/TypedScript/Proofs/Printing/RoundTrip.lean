/-
**Parsing undoes printing.** A printed script is cut into the texts of its statements, where every
`else` is a text of its own, and no semicolon is missed. Read one after the other these texts give
the statements back, as each `else` joins the branch in front of it.

Blocks are read by readers for shorter texts, so the proof is an induction over the length of the
text, which is also the depth that readers are built for.
-/

import TypedScript.Proofs.Printing.Statements
import TypedScript.Syntax.Parsing

namespace TypedScript

open Text

variable {header lines text : List Char} {kind : Kind} {body : List Stmt} {condition : List Token}
  {line : Nat} {added : Otherwise} {statements : List Statement} {inner : Inner}

/-! ### Where printed statements end -/

theorem stays_assigned {left : List Char} (passable : Passable .list left) (op : Operator)
    {value : List Token} (printable : tokensPrintable value = true) :
    Stays (assigned left op (printTokens value)) (0, 0) := by
  have front : Passable .list (left ++ [' ']) := passable.append (.quiet rfl (.nil .list))
  have operator : Stays (op.spelling.toList ++ [' ']) (0, 0) := by
    intro rest
    cases op <;> rfl
  have behind := stays_of_passable (by decide) (tokens_passable (tokens_spellable printable))
  have stays := ((stays_of_passable (by decide) front).append operator).append behind
  simpa [assigned] using stays

theorem stays_opened (first : Passable .list header) (second : Passable .block lines) :
    Stays (header ++ '\x7b' :: '\n' :: lines) (1, 0) := by
  have inside : Passable .block ('\n' :: lines) := .quiet rfl second
  have admitted : heldPass.admits .block (1, 0) := fun _ => Nat.le_refl 1
  refine (stays_of_passable (by decide) first).append fun rest => ?_
  have passes := (heldPass.passes inside admitted rest).trans (foldr_held _ _)
  exact congrArg (Prod.map ('\x7b' :: ·) id) passes

/-! ### Cutting printed statements -/

theorem cuts_block (first : Passable .list header) (second : Passable .block lines)
    (shown : Shown text) (trimmed : trim (header ++ inBraces lines) = text) :
    Cuts (header ++ inBraces lines) [text] := by
  have whole : header ++ inBraces lines = (header ++ '\x7b' :: '\n' :: lines) ++ ['\x7d'] := by
    rw [inBraces, List.append_assoc]
    rfl
  rw [whole] at trimmed ⊢
  exact .of_held ((stays_opened first second).held rfl) rfl trimmed shown.nonempty

/-- The texts of the other sides of a branch. -/
def Otherwise.texts : Otherwise → List (List Char)
  | .nothing => []
  | .block body => [introduced .otherwise (inBraces (printBody body))]
  | .elseIf _ condition body otherwise =>
    introduced .otherwise (conditionHeader .ifThen condition ++ inBraces (printBody body)) ::
      otherwise.texts

/-- The other sides of a statement that is a branch. -/
def Kind.otherwise : Kind → Otherwise
  | .branch _ _ otherwise => otherwise
  | _ => .nothing

/-- The texts that a printed script is cut into. -/
def statementTexts : List Stmt → List (List Char)
  | [] => []
  | .mk _ kind :: rest => kind.command :: (kind.otherwise.texts ++ statementTexts rest)

theorem introduced_append (keyword : Keyword) (front back : List Char) :
    introduced keyword (front ++ back) = introduced keyword front ++ back := by
  rw [introduced, introduced, List.append_assoc, List.cons_append]

theorem cuts_else {front : List Char} (first : Passable .list front)
    (second : Passable .block lines) (shown : Shown (front ++ inBraces lines)) :
    Cuts (' ' :: introduced .otherwise (front ++ inBraces lines))
      [introduced .otherwise (front ++ inBraces lines)] := by
  have isShown := shown_introduced .otherwise shown
  have header : Passable .list (' ' :: introduced .otherwise front) :=
    .quiet rfl (introduced_passable .otherwise first)
  rw [introduced_append] at isShown ⊢
  exact cuts_block header second isShown ((trim_blank _).trans isShown.trim)

theorem Otherwise.cuts {otherwise : Otherwise} (printable : otherwise.isPrintable = true) :
    Cuts otherwise.print otherwise.texts := by
  cases otherwise with
  | nothing => exact .nil
  | block body =>
    exact cuts_else (.nil .list) (body_passable printable) (shown_inBraces (printBody body))
  | elseIf line condition body otherwise =>
    rw [Otherwise.isPrintable, Bool.and_eq_true, Bool.and_eq_true] at printable
    obtain ⟨⟨isCondition, bodyPrintable⟩, printable⟩ := printable
    have first := cuts_else (conditionHeader_passable .ifThen isCondition)
      (body_passable bodyPrintable) (shown_block .ifThen _ _)
    exact first.append (Otherwise.cuts printable)

/-- A printed statement is cut behind its end, and in front of every `else` in it. -/
theorem Kind.cuts (printable : kind.isPrintable = true) :
    Cuts (kind.command ++ kind.ending) (kind.command :: kind.otherwise.texts) := by
  have shown := Kind.shown printable
  have plain {text : List Char} (shown : Shown text)
      (stays : Stays text (0, 0)) : Cuts (text ++ [';', '\n']) [text] := by
    have first : Cuts (text ++ [';']) [text] :=
      .of_held (stays.held rfl) rfl shown.trim shown.nonempty
    have cuts := first.append .newline
    rwa [List.append_assoc] at cuts
  have block {header lines : List Char} (first : Passable .list header)
      (second : Passable .block lines) (shown : Shown (header ++ inBraces lines)) :
      Cuts (header ++ inBraces lines) [header ++ inBraces lines] :=
    cuts_block first second shown shown.trim
  cases kind with
  | declare name type value constant =>
    rw [Kind.isPrintable, Bool.and_eq_true, Bool.and_eq_true] at printable
    obtain ⟨⟨isFree, writable⟩, printable⟩ := printable
    have declared := stays_assigned (declared_passable isFree writable) .assign printable
    refine plain shown ?_
    cases constant with
    | true =>
      have front : Passable .list (introduced .constant []) :=
        introduced_passable .constant (.nil .list)
      exact (stays_of_passable (by decide) front).append declared
    | false => exact declared
  | modify base steps op value =>
    simp only [Kind.isPrintable, Bool.and_eq_true] at printable
    obtain ⟨⟨⟨isFree, stepsPrintable⟩, -⟩, printable⟩ := printable
    exact plain shown (stays_assigned (chain_passable isFree stepsPrintable) op printable)
  | expression tokens =>
    rw [Kind.isPrintable, Bool.and_eq_true] at printable
    exact plain shown (stays_of_passable (by decide) (tokens_passable (tokens_spellable printable.1)))
  | function name params returns body =>
    simp only [Kind.isPrintable, Bool.and_eq_true] at printable
    obtain ⟨⟨⟨isFree, each⟩, writable⟩, printable⟩ := printable
    exact (block (functionHeader_passable isFree each writable) (body_passable printable)
      shown).append .newline
  | branch condition body otherwise =>
    rw [Kind.isPrintable, Bool.and_eq_true, Bool.and_eq_true] at printable
    obtain ⟨⟨isCondition, bodyPrintable⟩, printable⟩ := printable
    have first := block (conditionHeader_passable .ifThen isCondition)
      (body_passable bodyPrintable) shown
    have others := (Otherwise.cuts printable).append .newline
    rw [List.append_nil] at others
    exact first.append others
  | loop condition body =>
    rw [Kind.isPrintable, Bool.and_eq_true] at printable
    exact (block (conditionHeader_passable .loop printable.1) (body_passable printable.2)
      shown).append .newline
  | call base steps arguments =>
    exact plain shown (stays_of_passable (by decide) (Token.passable (Token.spellable printable) rfl))
  | imports path =>
    exact plain shown (stays_of_passable (by decide) (introduced_passable .imports
      (passable_quoted .list (path_body printable))))
  | returns value =>
    cases value with
    | none => exact plain shown fun _ => rfl
    | some tokens =>
      exact plain shown (stays_of_passable (by decide) (introduced_passable .returns
        (tokens_passable (tokens_spellable printable))))

/-- **A printed script is cut into the texts of its statements.** -/
theorem body_cuts (printable : bodyPrintable body = true) :
    Cuts (printBody body) (statementTexts body) := by
  induction body with
  | nil => exact .nil
  | cons stmt rest ih =>
    obtain ⟨line, kind⟩ := stmt
    rw [bodyPrintable, Bool.and_eq_true] at printable
    exact (Kind.cuts printable.1).append (ih printable.2)

/-! ### Reading the statements -/

/-- A chain of `else if`, with something behind it. -/
def chained : List (Nat × List Token × List Stmt) → Otherwise → Otherwise
  | [], last => last
  | (line, condition, body) :: rest, last => .elseIf line condition body (chained rest last)

theorem chained_concat (links : List (Nat × List Token × List Stmt)) (line : Nat)
    (condition : List Token) (body : List Stmt) (last : Otherwise) :
    chained (links ++ [(line, condition, body)]) last =
      chained links (.elseIf line condition body last) := by
  induction links with
  | nil => rfl
  | cons link rest ih =>
    obtain ⟨line, condition, body⟩ := link
    exact congrArg (Otherwise.elseIf line condition body) ih

theorem attach_chained (links : List (Nat × List Token × List Stmt)) (added : Otherwise) :
    Otherwise.attach? added (chained links .nothing) = some (chained links added) := by
  induction links with
  | nil => rfl
  | cons link rest ih =>
    obtain ⟨line, condition, body⟩ := link
    rw [chained, Otherwise.attach?, ih]
    rfl

theorem unlined_branch (same : kind.unlined = .branch condition body .nothing) :
    ∃ read, kind = .branch condition read .nothing ∧ unlinedBody read = body := by
  cases kind with
  | branch condition read otherwise =>
    obtain ⟨rfl, rfl, nothing⟩ := Kind.branch.inj same
    cases otherwise with
    | nothing => exact ⟨read, rfl, rfl⟩
    | block | elseIf => contradiction
  | _ => contradiction

def Attaches (inner : Inner) (statements : List Statement) (added : Otherwise) : Prop :=
  ∀ line condition body links read later,
    readStatements inner (.mk line (.branch condition body (chained links .nothing)) :: read)
        (statements ++ later) =
      readStatements inner (.mk line (.branch condition body (chained links added)) :: read) later

theorem attaches_else (found : readElse inner (introduced .otherwise text) line = .done added) :
    Attaches inner [⟨introduced .otherwise text, line⟩] added := by
  intro start condition body links read later
  have isElse : leadingWord (introduced .otherwise text) = "else".toList :=
    (word_of_keyword .otherwise).takeWhile (head_blank text)
  have present : (introduced .otherwise text).isEmpty = false := rfl
  have recovered : (Reading.done added).recover = .done (some added) := rfl
  have attached : readStatement inner
      (.mk start (.branch condition body (chained links .nothing)) :: read)
      ⟨introduced .otherwise text, line⟩ =
      .done (.mk start (.branch condition body (chained links added)) :: read) := by
    unfold readStatement
    simp only [present, Bool.false_eq_true, if_false, isElse, if_true, found]
    rw [recovered, Reading.done_bind]
    simp only [attachElse, Stmt.attach?, attach_chained]
  rw [List.singleton_append, readStatements, attached, Reading.done_bind]

theorem Attaches.conditional {statement : Statement}
    (first : Attaches inner [statement] (.elseIf line condition body .nothing))
    (others : Attaches inner statements added) :
    Attaches inner (statement :: statements) (.elseIf line condition body added) := by
  intro start outer block links read later
  rw [← chained_concat, ← others, chained_concat, ← first]
  rfl

section Reading

variable {inner : Inner} {size : Nat} (faithful : inner.Faithful size)

include faithful

theorem readStatements_otherwise : ∀ {otherwise : Otherwise}, otherwise.isPrintable = true →
    otherwise.print.length ≤ size → ∀ {statements : List Statement},
    statements.map Statement.text = otherwise.texts →
    ∃ found : Otherwise, Attaches inner statements found ∧ found.unlined = otherwise.unlined
  | .nothing, _, _, statements, texts => by
    obtain rfl := List.map_eq_nil_iff.mp texts
    exact ⟨.nothing, fun _ _ _ _ _ _ => rfl, rfl⟩
  | .block body, printable, short, statements, texts => by
    obtain ⟨⟨text, line⟩, rfl, same⟩ := List.map_eq_singleton_iff.mp texts
    obtain rfl : text = _ := same
    obtain ⟨read, found, same⟩ := readElse_block faithful line printable (Nat.le_of_lt short)
    exact ⟨.block read, attaches_else found, congrArg Otherwise.block same⟩
  | .elseIf _ condition body otherwise, printable, short, statements, texts => by
    rw [Otherwise.isPrintable, Bool.and_eq_true, Bool.and_eq_true] at printable
    obtain ⟨⟨isCondition, bodyPrintable⟩, printable⟩ := printable
    rw [Otherwise.print, List.length_append, List.length_cons] at short
    obtain ⟨⟨text, line⟩, others, rfl, same, otherTexts⟩ := List.map_eq_cons_iff.mp texts
    obtain rfl : text = _ := same
    obtain ⟨read, found, same⟩ := readElse_conditional faithful line isCondition bodyPrintable
      (by omega)
    obtain ⟨last, attaches, unlined⟩ := readStatements_otherwise printable (by omega) otherTexts
    refine ⟨.elseIf line condition read last, (attaches_else found).conditional attaches, ?_⟩
    exact congrArg₂ (Otherwise.elseIf 0 condition) same unlined

theorem readStatement_command (printable : kind.isPrintable = true)
    (short : kind.command.length ≤ size) (line : Nat) :
    ∃ found : Kind, found.unlined = kind.alone.unlined ∧ ∀ read,
      readStatement inner read ⟨kind.command, line⟩ = .done (.mk line found :: read) := by
  obtain ⟨found, isRead, same⟩ := readCommand_printed faithful line printable short
  have shown := Kind.shown printable
  have present : kind.command.isEmpty = false := by simpa using shown.nonempty
  have noElse : leadingWord kind.command ≠ "else".toList := by
    intro isElse
    have leads : Keyword.leading? kind.command = some .otherwise := by
      rw [Keyword.leading?, isElse]
      rfl
    rw [readCommand_keyword inner shown line leads] at isRead
    cases congrArg Reading.outcome isRead
  refine ⟨found, same, fun read => ?_⟩
  unfold readStatement
  simp only [present, Bool.false_eq_true, if_false, noElse, isRead]
  rfl

theorem readStatements_kind (printable : kind.isPrintable = true)
    (short : (kind.command ++ kind.ending).length ≤ size) (line : Nat) {others : List Statement}
    (texts : others.map Statement.text = kind.otherwise.texts) :
    ∃ found : Kind, found.unlined = kind.unlined ∧ ∀ read later,
      readStatements inner read (⟨kind.command, line⟩ :: (others ++ later)) =
        readStatements inner (.mk line found :: read) later := by
  rw [List.length_append] at short
  obtain ⟨first, same, isRead⟩ := readStatement_command faithful printable (by omega) line
  have start (read : List Stmt) (later : List Statement) :
      readStatements inner read (⟨kind.command, line⟩ :: later) =
        readStatements inner (.mk line first :: read) later := by
    rw [readStatements, isRead, Reading.done_bind]
  cases kind with
  | branch condition body otherwise =>
    rw [Kind.isPrintable, Bool.and_eq_true] at printable
    have sides : otherwise.print.length ≤ size := by
      have ending : ((Kind.branch condition body otherwise).ending).length =
          (otherwise.print ++ ['\n']).length := rfl
      rw [ending, List.length_append] at short
      omega
    obtain ⟨read, rfl, unlined⟩ := unlined_branch same
    obtain ⟨found, attaches, otherUnlined⟩ :=
      readStatements_otherwise faithful printable.2 sides texts
    refine ⟨.branch condition read found, ?_, fun before later => ?_⟩
    · exact congrArg₂ (Kind.branch condition) unlined otherUnlined
    · rw [start]
      exact attaches line condition read [] before later
  | _ =>
    obtain rfl := List.map_eq_nil_iff.mp texts
    exact ⟨first, same, start⟩

theorem readStatements_printed (printable : bodyPrintable body = true)
    (short : (printBody body).length ≤ size)
    (texts : statements.map Statement.text = statementTexts body) :
    ∃ found, unlinedBody found = unlinedBody body ∧ ∀ read,
      readStatements inner read statements = .done (read.reverse ++ found) := by
  induction body generalizing statements with
  | nil =>
    obtain rfl := List.map_eq_nil_iff.mp texts
    exact ⟨[], rfl, fun read => by rw [List.append_nil]; rfl⟩
  | cons stmt rest ih =>
    obtain ⟨number, kind⟩ := stmt
    rw [bodyPrintable, Bool.and_eq_true] at printable
    rw [printBody, List.length_append] at short
    obtain ⟨⟨text, line⟩, behind, rfl, rfl, behindTexts⟩ := List.map_eq_cons_iff.mp texts
    obtain ⟨others, later, rfl, otherTexts, laterTexts⟩ := List.map_eq_append_iff.mp behindTexts
    obtain ⟨first, same, isRead⟩ := readStatements_kind faithful printable.1 (by omega) line
      otherTexts
    obtain ⟨found, unlined, isReadLater⟩ := ih printable.2 (by omega) laterTexts
    refine ⟨.mk line first :: found, ?_, fun read => ?_⟩
    · exact congrArg₂ (fun kind rest => Stmt.mk 0 kind :: rest) same unlined
    · rw [isRead, isReadLater, List.reverse_cons, List.append_assoc]
      rfl

theorem readBody_of_cuts (printable : bodyPrintable body = true)
    (short : (printBody body).length ≤ size) (cuts : Cuts text (statementTexts body)) (line : Nat) :
    ∃ read, readBody inner text line = .done read ∧ unlinedBody read = unlinedBody body := by
  obtain ⟨found, missing⟩ := cuts.finishes.splitStatements line
  obtain ⟨read, same, isRead⟩ := readStatements_printed faithful printable short found
  refine ⟨read, ?_, same⟩
  unfold readBody
  simp only [missing, isRead]
  rfl

/-- **Reading a printed script gives the script**, but for its lines, also behind a newline. -/
theorem readBody_printed (printable : bodyPrintable body = true)
    (short : (printBody body).length ≤ size) (line : Nat) :
    (∃ read, readBody inner (printBody body) line = .done read ∧
      unlinedBody read = unlinedBody body) ∧
    ∃ read, readBody inner ('\n' :: printBody body) line = .done read ∧
      unlinedBody read = unlinedBody body :=
  ⟨readBody_of_cuts faithful printable short (body_cuts printable) line,
    readBody_of_cuts faithful printable short (Cuts.newline.append (body_cuts printable)) line⟩

end Reading

/-! ### The parser -/

/-- **Readers for a depth read back the printed texts that are shorter.** -/
theorem faithful_upTo (depth : Nat) : (Inner.upTo depth).Faithful depth := by
  induction depth with
  | zero => exact ⟨fun _ short => absurd short (by simp), fun _ short => absurd short (by simp)⟩
  | succ depth ih =>
    refine ⟨fun printable short line => ?_, fun printable short line => ?_⟩
    · exact readExpression_printed ih printable (Nat.le_of_lt_succ short) line
    · exact (readBody_printed ih printable (by omega) line).2

/-- **Reading inverts printing.** Expressions that can be spelled are read back from their texts, at
any depth that is enough for the text, and nothing is reported. -/
theorem readExpression_spelled {tokens : List Token} (spellable : tokensSpellable tokens = true)
    {depth : Nat} (deep : (printTokens tokens).length ≤ depth) (line : Nat) :
    readExpression (Inner.upTo depth) (printTokens tokens) line = .done tokens :=
  readExpression_printed (faithful_upTo depth) spellable deep line

/-- `größe[if.0 - -2] + !await(true.é, (")\"" % 0.5)) * await await.x`. -/
def spelledTokens : List Token :=
  [.access "größe" [.index [.access "if" [.property "0"], .operator .sub,
     .number (.ofDecimal true 2 0)]], .operator .add, .operator .not,
   .call "await" [] [[.access "true" [.property "é"]],
     [.group [.text ")\"", .operator .mod, .number (.ofDecimal false 5 (-1))]]],
   .operator .mul, .await (.access "await" [.property "x"])]

theorem readExpression_spelled_nested : tokensSpellable spelledTokens = true ∧
    readExpression (Inner.within (printTokens spelledTokens)) (printTokens spelledTokens) 1 =
      .done spelledTokens :=
  ⟨by decide, readExpression_spelled (by decide) (Nat.le_refl _) 1⟩

/-- **Parsing a printed script gives the script**, but for its lines, and reports nothing. -/
theorem parse_printed {script : List Stmt} (printable : bodyPrintable script = true) :
    (parse (printBody script)).diagnostics = [] ∧
      unlinedBody (parse (printBody script)).statements = unlinedBody script := by
  obtain ⟨read, found, same⟩ := (readBody_printed (faithful_upTo (printBody script).length)
    printable (Nat.le_refl _) 1).1
  have parsed : parse (printBody script) = ⟨read, []⟩ := by
    unfold parse Inner.within
    rw [found]
    rfl
  rw [parsed]
  exact ⟨rfl, same⟩

/-- A script with a literal full of brackets, comments and newlines, a type that is a keyword, a
chain of `else`, and indexes and calls inside one another. -/
def nestedScript : List Stmt :=
  [.mk 1 (.declare "text" (.named "string" []) [.text "\x7d \" \\ // ; \n/* ("] true),
   .mk 2 (.declare "next" (.named "func" []) [.access "step" []] false),
   .mk 3 (.function "search"
     [⟨"items", .named "list" [.union [.named "number" [], .named "string" []]]⟩,
      ⟨"key", .union [.named "any" [], .named "null" []]⟩] (.named "bool" [])
     [.mk 4 (.branch [.operator .not, .group [.access "key" [], .operator .equals, .null]]
       [.mk 5 (.returns none)]
       (.elseIf 6
         [.access "items" [.property "size"], .operator .less, .number (.ofDecimal false 3 0)]
         [.mk 7 (.loop [.bool true]
           [.mk 8 (.modify "items"
             [.index [.access "key" [], .operator .add, .number (.ofDecimal true 1 0)],
              .property "count"] .addAssign [.number (.ofDecimal false 5 (-1))])])]
         (.block [.mk 9 (.returns (some [.await (.call "next" []
           [[.access "items" [.index [.text "]"]]],
            [.text "a, b", .operator .add, .access "key" []]])]))])))]),
   .mk 10 (.call "search" [.property "again"] []),
   .mk 11 (.expression [.call "next" [] [], .operator .sub, .number (.ofDecimal true 25 (-2))]),
   .mk 12 (.imports "lib/\x7b;\x7d.hs")]

theorem parse_printed_nested : bodyPrintable nestedScript = true ∧
    (parse (printBody nestedScript)).diagnostics = [] ∧
    unlinedBody (parse (printBody nestedScript)).statements = unlinedBody nestedScript :=
  ⟨by decide, parse_printed (by decide)⟩

end TypedScript
