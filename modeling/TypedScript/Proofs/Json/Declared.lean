/-
**Declarations of literals.** A script that declares a variable with the compact text of a list or an
object compiles to a program that declares it with the same text, an object in parentheses. The
exception are lists with an object in them that stands in no other object: the statement is cut behind
that object, and the bracket of the list is reported to be missing.

* `parse_declaration`, `parse_unclosed`: reading the two kinds of scripts.
-/

import TypedScript.Compile
import TypedScript.Proofs.Json.Passing

namespace TypedScript

open Text

variable {literal interior source : List Char} {last : Char} {items : List Json}
  {opener closer : Char} {token : Literal → Token}

/-! ### The statement -/

def literalDeclaration (literal : List Char) : List Char :=
  assigned "any x".toList .assign literal

theorem literalDeclaration_shown (shown : Shown literal) : Shown (literalDeclaration literal) := by
  have left : Shown "any x".toList := ⟨by decide, by decide, by decide⟩
  exact left.join shown [' ', '=', ' ']

theorem readAssignment_literal (inner : Inner) (shown : Shown literal) (line : Nat) :
    readAssignment inner (literalDeclaration literal) line false =
      (readExpression inner literal line >>= fun tokens =>
        .done (.mk line (.declare "x" .any tokens false))) := by
  have passable : Passable .list "any x".toList := .of_quiet (by decide)
  have declares : splitDeclaration "any x".toList = some ("any".toList, "x".toList) := by decide
  have present : literal.isEmpty = false := by simpa using shown.nonempty
  have left : trim ("any x".toList ++ [' ']) = "any x".toList := by decide
  have right : trim (' ' :: literal) = literal := (trim_blank literal).trans shown.trim
  have any : readType "any".toList = .ok .any := rfl
  unfold readAssignment
  rw [literalDeclaration, splitAssignment_assigned passable rfl]
  simp only [left, right, present, declares, Bool.false_eq_true, if_false, ne_eq, not_true, any]
  rfl

theorem readStatement_declaration (inner : Inner) (shown : Shown literal) (line : Nat)
    (read : List Stmt) :
    readStatement inner read ⟨literalDeclaration literal, line⟩ =
      ((readExpression inner literal line >>= fun tokens =>
        .done (Stmt.mk line (.declare "x" .any tokens false))).recover >>= fun
        | some stmt => .done (stmt :: read)
        | none => .done read) := by
  have whole := literalDeclaration_shown shown
  have present : (literalDeclaration literal).isEmpty = false := rfl
  have word : leadingWord (literalDeclaration literal) = "any".toList := rfl
  have leads : Keyword.leading? (literalDeclaration literal) = none := rfl
  unfold readStatement
  simp only [present, Bool.false_eq_true, if_false, word]
  rw [if_neg (by decide), readCommand_plain inner whole line (.inl leads),
    readAssignment_literal inner shown line]
  rfl

/-! ### Reading a literal -/

/-- Lists and objects, with their brackets. -/
inductive LiteralKind : Char → Char → (Literal → Token) → (Json → Target.Expr) → Prop
  | list : LiteralKind '[' ']' .array .array
  | object : LiteralKind '\x7b' '\x7d' .object .object

section Reading

variable {opener closer : Char} {token : Literal → Token} {code : Json → Target.Expr}
  (kind : LiteralKind opener closer token code) (inner : Inner) (line : Nat)

include kind

theorem readExpression_bracket (rest : List Char) :
    readExpression inner (opener :: rest) line =
      ((readLiteral opener closer (opener :: rest) line >>= fun read =>
        scanTokens inner line (read.2 - 1) ⟨[token read.1], false⟩ [opener] rest) >>= fun scan =>
          if !scan.endsInValue || scan.awaiting then Reading.fail .unexpectedEnd line
          else return scan.tokens.reverse) := by
  cases kind <;> rfl

theorem readExpression_literal {value : Json}
    (ends : balanced opener closer (opener :: (interior ++ [closer])) = some (interior, []))
    (denotes : Json.parse (opener :: (interior ++ [closer])) = .ok value) :
    readExpression inner (opener :: (interior ++ [closer])) line =
      .done [token ⟨value, value.elementType⟩] := by
  have literal : readLiteral opener closer (opener :: (interior ++ [closer])) line =
      .done (⟨value, value.elementType⟩, (interior ++ [closer]).length + 1) := by
    simp only [readLiteral, ends, denotes]
    rfl
  have skipped := scanTokens_skip inner line ⟨[token ⟨value, value.elementType⟩], false⟩ [opener]
    (interior ++ [closer]) []
  rw [List.append_nil] at skipped
  rw [readExpression_bracket kind, literal, Reading.done_bind, Nat.add_sub_cancel, skipped]
  cases kind <;> rfl

theorem readExpression_unclosed {rest : List Char}
    (never : balanced opener closer (opener :: rest) = none) :
    readExpression inner (opener :: rest) line =
      .fail (.expectedToken (String.ofList [closer])) line := by
  have literal : readLiteral opener closer (opener :: rest) line =
      .fail (.expectedToken (String.ofList [closer])) line := by
    simp only [readLiteral, never]
  rw [readExpression_bracket kind, literal]
  rfl

end Reading

/-! ### Cutting the statement -/

open Splitter

/-- What was found stays found. -/
theorem statements_suffix (splitter : Splitter) (marks : List Mark) :
    splitter.statements <:+ (marks.foldl take splitter).flush.statements := by
  have flushed {before after : Splitter} {read : List Char} {line : Nat}
      (statements : after.statements = if trim read.reverse = [] then before.statements
        else ⟨trim read.reverse, line⟩ :: before.statements) :
      before.statements <:+ after.statements := by
    rw [statements]
    split_ifs
    · exact List.suffix_rfl
    · exact List.suffix_cons _ _
  induction marks generalizing splitter with
  | nil => exact flushed (flush_statements splitter)
  | cons mark rest ih =>
    refine List.IsSuffix.trans ?_ (ih (splitter.take mark))
    obtain kept | dropped | ended | reported := take_cases splitter mark
    · exact kept.statements ▸ List.suffix_rfl
    · exact dropped.statements ▸ List.suffix_rfl
    · exact flushed ended.flushes.statements
    · exact flushed reported.flushes.statements

/-- **The declaration of a literal is cut out whole** if the literal stays in one statement up to
the character that ends it. -/
theorem cut_declaration {read : List Char} {opened : Nat × Nat} (c : Char)
    (stays : Stays read opened) (ends : (Mark.code c).ends opened = true)
    (whole : literal = if c = ';' then read else read ++ [c]) (shown : Shown literal)
    (rest : List Char) : ∃ others missing,
      splitStatements (literalDeclaration (read ++ c :: rest)) 1 =
        (⟨literalDeclaration literal, 1⟩ :: others, missing) ∧
      (Cuts rest [] → others = [] ∧ missing = []) := by
  have front : Stays "any x = ".toList (0, 0) := fun _ => rfl
  have text : literalDeclaration literal = if Mark.code c = .code ';'
      then "any x = ".toList ++ read else ("any x = ".toList ++ read) ++ [(Mark.code c).char] := by
    rw [whole]
    by_cases semicolon : c = ';'
    · subst semicolon
      rfl
    · simp [semicolon, Mark.char, literalDeclaration, assigned]
      rfl
  obtain ⟨after, line, between, diagnostics, run, statements, first⟩ :=
    (start_between 1).cut ((front.append stays).held ends rest) ends text
  have declared := literalDeclaration_shown shown
  have alone : after.statements = [⟨literalDeclaration literal, 1⟩] := by
    rw [statements, declared.trim, if_neg declared.nonempty, first 'a' rfl rfl]
    rfl
  have script : literalDeclaration (read ++ c :: rest) = "any x = ".toList ++ read ++ c :: rest := by
    rw [List.append_assoc]
    rfl
  obtain ⟨more, found⟩ := statements_suffix after (marks .code rest)
  rw [script, splitStatements_eq_marks, run, ← found, alone]
  refine ⟨more.reverse, _, by rw [List.reverse_append]; rfl, fun cuts => ?_⟩
  obtain ⟨last, lastBetween, texts, lastDiagnostics, lastRun⟩ := cuts after [] between
  rw [List.append_nil] at lastRun
  have final : (marks .code rest).foldl take after = last := lastRun
  have whole : more ++ after.statements = last.statements := by
    rw [found, final, flush_statements, lastBetween.current]
    rfl
  have length : more.length = 0 := by
    have same := congrArg List.length texts
    simpa [Splitter.texts, ← whole] using same
  rw [final, lastDiagnostics, diagnostics, List.length_eq_zero_iff.mp length]
  exact ⟨rfl, rfl⟩

/-! ### Generating the declaration -/

theorem Json.elementType_known (value : Json) : value.elementType ∈ [Ty.any, .string, .number] := by
  unfold Json.elementType
  dsimp only
  split_ifs <;> simp

section Generation

variable {opener closer : Char} {token : Literal → Token} {code : Json → Target.Expr}
  (kind : LiteralKind opener closer token code) (load : String → Except Cause Module) (line : Nat)
  (value : Json)

include kind

theorem generateLevel_literal : ∃ scopes,
    generateLevel true [.mk line (.declare "x" .any [token ⟨value, value.elementType⟩] false)]
      (.start load) = (some [.declare false "x" (code value)],
        { Context.start load with scopes }) := by
  have known := value.elementType_known
  simp only [List.mem_cons, List.not_mem_nil, or_false] at known
  cases kind with
  | list | object =>
    rcases known with type | type | type <;>
      · rw [type]
        exact ⟨_, rfl⟩

theorem compile_literal (check : Bool) :
    compile load check [.mk line (.declare "x" .any [token ⟨value, value.elementType⟩] false)] =
      match if check then checkProgram (assemble [] [] [.declare false "x" (code value)])
        else .ok () with
      | .ok () => ⟨assemble [] [] [.declare false "x" (code value)], []⟩
      | .error diagnostic => ⟨"", [diagnostic]⟩ := by
  obtain ⟨scopes, generated⟩ := generateLevel_literal kind load line value
  unfold compile
  rw [generated]
  rfl

end Generation

/-! ### Whole scripts -/

theorem shown_between {first : Char} (shownFirst : isBlank first = false)
    (shownLast : isBlank last = false) (interior : List Char) :
    Shown (first :: (interior ++ [last])) := by
  refine ⟨nofun, forall_head_cons shownFirst _, fun c ends => ?_⟩
  rw [← List.cons_append, List.getLast?_concat] at ends
  obtain rfl : last = c := Option.some.inj ends
  exact shownLast

theorem parse_declaration {code : Json → Target.Expr}
    (kind : LiteralKind opener closer token code) {value : Json}
    (ends : balanced opener closer (opener :: (interior ++ [closer])) = some (interior, []))
    (denotes : Json.parse (opener :: (interior ++ [closer])) = .ok value)
    (cut : splitStatements source 1 =
      ([⟨literalDeclaration (opener :: (interior ++ [closer])), 1⟩], [])) :
    parse source = ⟨[.mk 1 (.declare "x" .any [token ⟨value, value.elementType⟩] false)], []⟩ := by
  have shown : Shown (opener :: (interior ++ [closer])) := by
    cases kind with
    | list | object => exact shown_between (by decide) (by decide) interior
  have body : readBody (Inner.within source) source 1 =
      .done [.mk 1 (.declare "x" .any [token ⟨value, value.elementType⟩] false)] := by
    unfold readBody
    rw [cut]
    show readStatements _ [] [_] = _
    rw [readStatements, readStatement_declaration _ shown,
      readExpression_literal kind _ _ ends denotes]
    rfl
  unfold parse
  rw [body]
  rfl

theorem parse_unclosed {interior source : List Char} {last : Char} (shownLast : isBlank last = false)
    (never : balanced '[' ']' ('[' :: (interior ++ [last])) = none) {others : List Statement}
    {missing : List Diagnostic} (cut : splitStatements source 1 =
      (⟨literalDeclaration ('[' :: (interior ++ [last])), 1⟩ :: others, missing)) :
    ⟨.expectedToken "]", 1⟩ ∈ (parse source).diagnostics := by
  have shown := shown_between (show isBlank '[' = false by decide) shownLast interior
  have first (inner : Inner) : readStatement inner []
      ⟨literalDeclaration ('[' :: (interior ++ [last])), 1⟩ =
        ⟨[⟨.expectedToken "]", 1⟩], .ok []⟩ := by
    rw [readStatement_declaration _ shown, readExpression_unclosed .list _ _ never]
    rfl
  have collected : ⟨.expectedToken "]", 1⟩ ∈
      (readBody (Inner.within source) source 1).collected := by
    unfold readBody
    rw [cut]
    show _ ∈ missing ++ (readStatements _ [] (_ :: others)).collected
    rw [readStatements, first]
    show _ ∈ missing ++ ([_] ++ _)
    simp
  unfold parse
  cases found : (readBody (Inner.within source) source 1).collected with
  | nil =>
    rw [found] at collected
    contradiction
  | cons diagnostic more =>
    rw [found] at collected
    simp only [found]
    exact collected

/-! ### The program of a literal -/

namespace Json

/-- Whether a value is a list or an object. -/
def isLiteral : Json → Bool
  | .array _ => true
  | .object _ => true
  | _ => false

/-- Whether a variable can be declared with a value. -/
def isDeclarable : Json → Bool
  | .object _ => true
  | value => value.isFlat

/-- The text that a variable is declared with in a program. -/
def initializer (value : Json) : String :=
  match value with
  | .object _ => "(" ++ value.write ++ ")"
  | _ => value.write

/-- The program that declares a value. -/
def program (value : Json) : String :=
  "(async () => \x7b\n// Embedded imports\n    let x = " ++ value.initializer ++ ";\n\x7d)();\n"

end Json

/-- A script that declares a value. -/
def literalScript (value : Json) : String :=
  "any x = " ++ value.write ++ ";"

theorem toList_literalScript (value : Json) :
    (literalScript value).toList = literalDeclaration value.write.toList ++ [';'] := by
  rw [literalScript, String.toList_append, String.toList_append]
  rfl

theorem literalDeclaration_append (front back : List Char) :
    literalDeclaration (front ++ back) = literalDeclaration front ++ back := rfl

theorem cut_list (exact : Json.itemsExact items = true) (flat : Json.itemsFlat items = true) :
    splitStatements (literalScript (.array items)).toList 1 =
      ([⟨literalDeclaration (Json.array items).write.toList, 1⟩], []) := by
  have stays := stays_of_passable (by decide) (Json.passable_flat (.array items) exact flat)
  have shown : Shown (Json.array items).write.toList := by
    rw [Json.toList_writeArray]
    exact shown_between (by decide) (by decide) _
  obtain ⟨others, missing, cut, quiet⟩ := cut_declaration ';' stays rfl rfl shown []
  obtain ⟨rfl, rfl⟩ := quiet .nil
  rw [toList_literalScript]
  exact cut

theorem cut_object {fields : List (String × Json)} (exact : Json.fieldsExact fields = true) :
    splitStatements (literalScript (.object fields)).toList 1 =
      ([⟨literalDeclaration (Json.object fields).write.toList, 1⟩], []) := by
  have shown := shown_between (show isBlank '\x7b' = false by decide)
    (show isBlank '\x7d' = false by decide) (Json.writeFields fields).toList
  obtain ⟨others, missing, cut, quiet⟩ :=
    cut_declaration '\x7d' (stays_object exact) rfl rfl shown [';']
  obtain ⟨rfl, rfl⟩ := quiet .semicolon
  have script : literalDeclaration (Json.object fields).write.toList ++ [';'] = literalDeclaration
      ('\x7b' :: (Json.writeFields fields).toList ++ '\x7d' :: [';']) := by
    rw [← literalDeclaration_append, Json.toList_writeObject]
    simp
  rw [toList_literalScript, script, cut, Json.toList_writeObject]
  rfl

theorem cut_interrupted (exact : Json.itemsExact items = true)
    (flat : Json.itemsFlat items = false) : ∃ interior others missing,
    balanced '[' ']' ('[' :: (interior ++ ['\x7d'])) = none ∧
      splitStatements (literalScript (.array items)).toList 1 =
        (⟨literalDeclaration ('[' :: (interior ++ ['\x7d'])), 1⟩ :: others, missing) := by
  obtain ⟨front, back, same, place, never⟩ := interrupted_items items exact flat
  have opened : Stays ['['] (0, 0) := fun _ => rfl
  have shown := shown_between (show isBlank '[' = false by decide)
    (show isBlank '\x7d' = false by decide) front
  obtain ⟨others, missing, cut, -⟩ :=
    cut_declaration '\x7d' (opened.append place) rfl rfl shown (back ++ [']', ';'])
  have script : (literalScript (.array items)).toList =
      literalDeclaration (['['] ++ front ++ '\x7d' :: (back ++ [']', ';'])) := by
    rw [toList_literalScript, Json.toList_writeArray, same]
    simp [literalDeclaration, assigned]
  rw [script]
  exact ⟨front, others, missing, (balanced_cons ..).trans (never 0), cut⟩

theorem writeLines_declaration (code : Target.Expr) :
    (Target.writeLines 1 [.declare false "x" code]).toList =
      "    let x = ".toList ++ (code.write 1).toList ++ ";\n".toList := by
  have padding : (Target.padding 1).toList = "    ".toList := by
    rw [Target.padding, String.toList_ofList]
    rfl
  simp only [Target.writeLines, Target.Stmt.write, String.toList_append, padding]
  simp

theorem assemble_declaration (code : Target.Expr) :
    assemble [] [] [.declare false "x" code] =
      "(async () => \x7b\n// Embedded imports\n    let x = " ++ code.write 1 ++ ";\n\x7d)();\n" := by
  have noImports : (String.join (List.map Module.definition [])).toList = [] := rfl
  have noHelpers : (Helper.definitions []).toList = [] := rfl
  have head : "(async () => \x7b\n// Embedded imports\n    let x = ".toList =
      "(async () => \x7b\n// Embedded imports\n".toList ++ "    let x = ".toList := by decide
  have tail : ";\n\x7d)();\n".toList = ";\n".toList ++ "\x7d)();\n".toList := by decide
  apply String.toList_injective
  unfold assemble
  simp only [String.toList_append, writeLines_declaration, noImports, noHelpers, head, tail,
    List.append_assoc, List.nil_append]

/-- The outcome for a program. -/
def checked (check : Bool) (code : String) : Compiled :=
  match if check then checkProgram code else .ok () with
  | .ok () => ⟨code, []⟩
  | .error diagnostic => ⟨"", [diagnostic]⟩

theorem compileSource_declaration {code : Json → Target.Expr}
    (kind : LiteralKind opener closer token code) (load : String → Except Cause Module)
    (check : Bool) {value : Json} (text : value.write.toList = opener :: (interior ++ [closer]))
    (ends : balanced opener closer (opener :: (interior ++ [closer])) = some (interior, []))
    (exact : value.isExact = true) (shallow : value.depth ≤ Json.depthLimit)
    (cut : splitStatements (literalScript value).toList 1 =
      ([⟨literalDeclaration value.write.toList, 1⟩], [])) :
    compileSource load check (literalScript value) =
      checked check (assemble [] [] [.declare false "x" (code value)]) := by
  have denotes := Json.parse_write exact shallow
  rw [text] at denotes cut
  have parsed := parse_declaration kind ends denotes cut
  unfold compileSource
  rw [parsed]
  exact compile_literal kind load 1 value check

theorem compileSource_interrupted (load : String → Except Cause Module) (check : Bool)
    (exact : Json.itemsExact items = true) (nested : Json.itemsFlat items = false) :
    ⟨.expectedToken "]", 1⟩ ∈
      (compileSource load check (literalScript (.array items))).diagnostics := by
  obtain ⟨interior, others, missing, never, cut⟩ := cut_interrupted exact nested
  have reported := parse_unclosed (by decide) never cut
  have failed : ¬ (parse (literalScript (.array items)).toList).diagnostics.isEmpty = true := by
    rw [List.isEmpty_iff]
    exact List.ne_nil_of_mem reported
  unfold compileSource
  rw [if_neg failed]
  exact reported

/-- **A script that declares a literal** compiles to a program that declares the same literal, if no
object in a list is cut off. Otherwise the end of the list is reported to be missing. -/
theorem literal_declared (load : String → Except Cause Module) (check : Bool) (value : Json)
    (isLiteral : value.isLiteral = true) (exact : value.isExact = true)
    (shallow : value.depth ≤ Json.depthLimit) :
    (value.isDeclarable = true →
      compileSource load check (literalScript value) = checked check value.program) ∧
    (value.isDeclarable = false →
      ⟨.expectedToken "]", 1⟩ ∈ (compileSource load check (literalScript value)).diagnostics) := by
  cases value with
  | array items =>
    have bracket : ('[', ']') ∈ bracketPairs := by decide
    constructor
    · intro flat
      have inside := (balancedPass_takesJson bracket).items items exact 0 trivial
      have compiled := compileSource_declaration .list load check (Json.toList_writeArray items)
        (balanced_of_takesIn bracket inside) exact shallow (cut_list exact flat)
      rwa [assemble_declaration] at compiled
    · exact compileSource_interrupted load check exact
  | object fields =>
    have brace : ('\x7b', '\x7d') ∈ bracketPairs := by decide
    refine ⟨fun _ => ?_, nofun⟩
    have fieldsExact := exact
    rw [Json.isExact, Bool.and_eq_true] at fieldsExact
    have inside := (balancedPass_takesJson brace).fields fields fieldsExact.2 0 trivial
    have compiled := compileSource_declaration .object load check (Json.toList_writeObject fields)
      (balanced_of_takesIn brace inside) exact shallow (cut_object fieldsExact.2)
    rwa [assemble_declaration] at compiled
  | _ => contradiction

/-- An object with lists and objects in each other, with a string full of brackets and with the least
number. -/
theorem literal_declared_nested :
    compileSource (fun _ => .error .missingSemicolon) false (literalScript (.object
      [("a", .array [.object [("\x7d]", .null)], .text "\x7b[\"\n"]),
        ("b", .int (-9223372036854775808))])) =
      ⟨"(async () => \x7b\n// Embedded imports\n    let x = (\x7b\"a\":[\x7b\"\x7d]\":null\x7d," ++
        "\"\x7b[\\\"\\n\"],\"b\":-9223372036854775808\x7d);\n\x7d)();\n", []⟩ :=
  ((literal_declared (fun _ => .error .missingSemicolon) false (.object
    [("a", .array [.object [("\x7d]", .null)], .text "\x7b[\"\n"]),
      ("b", .int (-9223372036854775808))]) rfl (by decide) (by decide)).1 rfl).trans rfl

/-- The shortest list that no variable can be declared with has an empty object in it. -/
theorem object_in_list_undeclared :
    ¬ ∀ value : Json, value.isLiteral = true → value.isExact = true →
      value.depth ≤ Json.depthLimit →
      ∃ load check, (compileSource load check (literalScript value)).diagnostics = [] := by
  intro declared
  have exact : Json.itemsExact [.object []] = true := rfl
  have nested : Json.itemsFlat [.object []] = false := rfl
  obtain ⟨load, check, quiet⟩ := declared (.array [.object []]) rfl exact (by decide)
  have reported := compileSource_interrupted load check exact nested
  rw [quiet] at reported
  exact List.not_mem_nil reported

end TypedScript
