/-
**Reading further down.** What is read of a text that starts some lines further down is what is read
of the text, moved down. Readers for text inside brackets may differ beyond that, as long as they
agree on all texts that are shorter: the depth that a reader was built for has no influence.

* `scanTokens_moves`, `readCommand_moves`, `readBody_moves`: expressions, statements and blocks.
-/

import TypedScript.Proofs.Lines.Moved
import TypedScript.Proofs.Parsing.Readers
import TypedScript.Proofs.Splitting.Cuts

namespace TypedScript

open Text

/-- The second readers give what the first ones give for texts below a length, moved down. -/
structure Inner.Moves (stops : Prop) (lines bound : Nat) (inner inner' : Inner) : Prop where
  expression : ∀ text line, text.length < bound →
    (inner.expression text line).Moves stops lines (tokensMoved lines)
      (inner'.expression text (line + lines))
  body : ∀ text line, text.length < bound →
    (inner.body text line).Moves stops lines (bodyMoved lines) (inner'.body text (line + lines))

section Readers

variable {inner inner' : Inner} {stops : Prop} {lines bound line : Nat} {cursor : Cursor}
  {text : List Char}

/-! ### Tokens and texts -/

def Chain.moved (lines : Nat) (chain : Chain) : Chain :=
  ⟨chain.base, stepsMoved lines chain.steps⟩

def Scan.moved (lines : Nat) (scan : Scan) : Scan :=
  ⟨tokensMoved lines scan.tokens, scan.awaiting⟩

theorem Scan.endsInValue_moved (lines : Nat) (scan : Scan) :
    (scan.moved lines).endsInValue = scan.endsInValue := by
  obtain ⟨tokens, awaiting⟩ := scan
  cases tokens with
  | nil => rfl
  | cons last earlier => exact Token.isValue_moved lines last

theorem Scan.describe_moved (lines : Nat) (token : Token) :
    Scan.describe (token.moved lines) = Scan.describe token := by
  cases token <;> rfl

theorem pushValue_moves (scan : Scan) (token : Token) :
    (scan.pushValue token line).Moves stops lines (Scan.moved lines)
      ((scan.moved lines).pushValue (token.moved lines) (line + lines)) := by
  unfold Scan.pushValue
  rw [Scan.endsInValue_moved, Scan.describe_moved]
  exact .refusing fun _ => .ite (fun _ => .done) fun _ => .done

theorem pushOperator_moves (scan : Scan) (op : Operator) :
    (scan.pushOperator op line).Moves stops lines (Scan.moved lines)
      ((scan.moved lines).pushOperator op (line + lines)) := by
  unfold Scan.pushOperator
  exact .refusing fun _ => .done

theorem readNumber_moves (c : Char) (rest : List Char) :
    (readNumber c rest line).Moves stops lines (Prod.map (Token.moved lines) id)
      (readNumber c rest (line + lines)) := by
  unfold readNumber
  dsimp only
  split
  · exact .done
  · exact .fail

theorem readLiteral_moves (opener closer : Char) (text : List Char) :
    (readLiteral opener closer text line).Moves stops lines id
      (readLiteral opener closer text (line + lines)) := by
  unfold readLiteral
  cases balanced opener closer text with
  | none => exact .fail
  | some region =>
    dsimp only
    split
    · exact .fail
    · exact .done

theorem startsNumber_moved (scan : Scan) (c : Char) (rest : List Char) :
    startsNumber (scan.moved lines) c rest = startsNumber scan c rest := by
  unfold startsNumber
  rw [Scan.endsInValue_moved]

theorem ensureEnd_moves (cursor : Cursor) :
    (ensureEnd cursor line).Moves stops lines id (ensureEnd cursor (line + lines)) := by
  unfold ensureEnd
  exact .ite (fun _ => .done) fun _ => .fail

theorem readImport_moves (text : List Char) :
    (readImport text line).Moves stops lines (Stmt.moved lines) (readImport text (line + lines)) := by
  unfold readImport
  exact .refusing fun _ => .refusing fun _ => .bind (ensureEnd_moves _) fun _ _ => .pure rfl

theorem ofTokens_moved (lines : Nat) (tokens : List Token) :
    Kind.ofTokens (tokensMoved lines tokens) = (Kind.ofTokens tokens).moved lines := by
  unfold Kind.ofTokens
  rcases tokens with _ | ⟨token, _ | ⟨next, rest⟩⟩
  · rfl
  · cases token <;> rfl
  · cases token <;> rfl

theorem attachElse_moves (branch : Otherwise) (read : List Stmt) :
    (attachElse branch line read).Moves stops lines (List.map (Stmt.moved lines))
      (attachElse (branch.moved lines) (line + lines) (read.map (Stmt.moved lines))) := by
  cases read with
  | nil => exact .given
  | cons last earlier =>
    rw [List.map_cons, attachElse, attachElse, Stmt.attach?_moved]
    cases last.attach? branch with
    | none => exact .given
    | some joined => exact .done

theorem length_skipBlank_le (cursor : Cursor) :
    cursor.skipBlank.ahead.length ≤ cursor.ahead.length := by
  obtain ⟨blanks, _, ahead, _⟩ := cursor.skipBlank_eq
  rw [ahead, List.length_append]
  omega

/-- What is taken out of brackets is shorter than the text ahead, and so is what follows them. -/
theorem length_of_takeBalanced {after : Cursor} {opener closer : Char} {interior : List Char}
    (taken : cursor.takeBalanced opener closer = (some interior, after)) :
    interior.length < cursor.ahead.length ∧ after.ahead.length ≤ cursor.ahead.length := by
  obtain ⟨_, ahead, _⟩ := Cursor.takeBalanced_eq_some taken
  rw [ahead]
  simp only [List.length_cons, List.length_append]
  omega

theorem length_of_splitAssignment {left right : List Char} {op : Operator}
    (cut : splitAssignment text = some (left, op, right)) :
    left.length ≤ text.length ∧ right.length ≤ text.length := by
  rw [splitAssignment_eq_some cut]
  simp only [List.length_append]
  omega

/-! ### Text inside brackets -/

variable (moves : inner.Moves stops lines bound inner')

include moves

theorem readArguments_moves {texts : List (List Char)}
    (short : ∀ text ∈ texts, text.length < bound) :
    (readArguments inner line texts).Moves stops lines (argumentsMoved lines)
      (readArguments inner' (line + lines) texts) := by
  induction texts with
  | nil => exact .done
  | cons text rest ih =>
    obtain ⟨first, others⟩ := List.forall_mem_cons.mp short
    rw [readArguments, readArguments]
    exact .bind (moves.expression _ _ first) fun tokens _ => .bind (ih others) fun arguments _ =>
      .pure rfl

theorem readBlock_moves (short : cursor.ahead.length ≤ bound) :
    (readBlock inner cursor line).Moves stops lines (Prod.map (bodyMoved lines) id)
      (readBlock inner' cursor (line + lines)) := by
  have skipped := length_skipBlank_le cursor
  unfold readBlock
  refine .refusing fun _ => ?_
  rcases taken : cursor.skipBlank.takeBalanced '{' '}' with ⟨interior | interior, after⟩
  · exact .fail
  · obtain ⟨inside, _⟩ := length_of_takeBalanced taken
    rw [Nat.add_right_comm]
    exact .bind (moves.body _ _ (by omega)) fun body _ => .pure rfl

theorem readLambda_moves (params : List Char) (short : cursor.ahead.length ≤ bound) :
    (readLambda inner params cursor line).Moves stops lines (Prod.map (Token.moved lines) id)
      (readLambda inner' params cursor (line + lines)) := by
  have ahead : (cursor.advance 2).skipBlank.ahead.length ≤ bound := by
    refine (length_skipBlank_le _).trans ?_
    rw [Cursor.advance_ahead, List.length_drop]
    omega
  unfold readLambda
  exact .refusing fun _ => .bind .lift fun params _ =>
    .bind (readBlock_moves moves ahead) fun block _ => .pure rfl

theorem readParenthesized_moves (short : cursor.ahead.length ≤ bound) :
    (readParenthesized inner cursor line).Moves stops lines (Prod.map (Token.moved lines) id)
      (readParenthesized inner' cursor (line + lines)) := by
  unfold readParenthesized
  rcases taken : cursor.takeBalanced '(' ')' with ⟨interior | interior, after⟩
  · exact .fail
  · obtain ⟨inside, behind⟩ := length_of_takeBalanced taken
    have skipped := length_skipBlank_le after
    exact .ite (fun _ => readLambda_moves moves interior (by omega)) fun _ =>
      .bind (moves.expression _ _ (by omega)) fun tokens _ => .pure rfl

/-! ### Accesses -/

section Texts

variable {text : List Char} (short : text.length ≤ bound)

include short

theorem readSteps_moves (whole : List Char) (skip : Nat) :
    (readSteps inner whole line skip text).Moves stops lines (stepsMoved lines)
      (readSteps inner' whole (line + lines) skip text) := by
  induction text generalizing skip with
  | nil =>
    rw [readSteps, readSteps]
    exact .done
  | cons c rest ih =>
    have others := ih (Nat.le_of_succ_le short)
    cases skip with
    | succ skip =>
      rw [readSteps, readSteps]
      exact others skip
    | zero =>
      rw [readSteps, readSteps]
      refine .ite (fun _ => .refusing fun _ => .bind (others _) fun steps _ => .pure rfl)
        fun _ => .ite (fun _ => ?_) fun _ => .fail
      cases found : balanced '[' ']' (c :: rest) with
      | none => exact .fail
      | some region =>
        have inside : region.1.length < bound := by
          have length := length_of_balanced found
          omega
        exact .bind (moves.expression _ _ inside) fun index _ =>
          .bind (others _) fun steps _ => .pure rfl

theorem readChain_moves :
    (readChain inner text line).Moves stops lines (Chain.moved lines)
      (readChain inner' text (line + lines)) := by
  have steps : ((trim text).drop (leadingWord (trim text)).length).length ≤ bound := by
    have trimmed := length_trim_le text
    rw [List.length_drop]
    omega
  unfold readChain
  exact .ite (fun _ => .bind (readSteps_moves moves steps _ _) fun steps _ => .pure rfl)
    fun _ => .fail

/-! ### Expressions -/

theorem pushWord_moves (scan : Scan) :
    (scan.pushWord inner text line).Moves stops lines (Scan.moved lines)
      ((scan.moved lines).pushWord inner' text (line + lines)) := by
  unfold Scan.pushWord
  rw [Scan.endsInValue_moved]
  exact .ite (fun _ => pushValue_moves scan _) fun _ => .ite (fun _ => pushValue_moves scan _)
    fun _ => .ite (fun _ => pushValue_moves scan _) fun _ => .ite (fun _ => .done) fun _ =>
      .refusing fun _ => .bind (readChain_moves moves short) fun chain _ =>
        pushValue_moves scan (.access chain.base chain.steps)

theorem readWord_moves (scan : Scan) :
    (readWord inner scan text line).Moves stops lines (Prod.map (Scan.moved lines) id)
      (readWord inner' (scan.moved lines) text (line + lines)) := by
  unfold readWord
  refine .bind .require fun length _ => ?_
  have word : (text.take length).length ≤ bound := by
    rw [List.length_take]
    omega
  refine .ite (fun _ => ?_) fun _ => .bind (pushWord_moves moves word scan) fun scan _ => .pure rfl
  refine .bind .require fun region found => ?_
  have inside : ∀ piece ∈ splitArguments region.1, piece.length < bound := by
    intro piece member
    have among := length_of_mem_splitArguments member
    have closed := length_of_balanced (Reading.require_eq_ok found)
    rw [List.length_drop] at closed
    omega
  exact .bind (readChain_moves moves word) fun chain _ =>
    .bind (readArguments_moves moves inside) fun arguments _ =>
      .bind (pushValue_moves scan (.call chain.base chain.steps arguments)) fun scan _ => .pure rfl

/-- **An expression further down** has the same tokens. -/
theorem scanTokens_moves (skip : Nat) (scan : Scan) (passed : List Char) :
    (scanTokens inner line skip scan passed text).Moves stops lines (Scan.moved lines)
      (scanTokens inner' (line + lines) skip (scan.moved lines) passed text) := by
  induction text generalizing skip scan passed with
  | nil =>
    rw [scanTokens, scanTokens]
    exact .done
  | cons c rest ih =>
    have others := ih (Nat.le_of_succ_le short)
    cases skip with
    | succ skip =>
      rw [scanTokens, scanTokens]
      exact others skip scan _
    | zero =>
      have pushed (token : Token) (skip : Nat) :
          (scan.pushValue token line >>= fun scan =>
            scanTokens inner line skip scan (c :: passed) rest).Moves stops lines (Scan.moved lines)
            ((scan.moved lines).pushValue (token.moved lines) (line + lines) >>= fun scan =>
              scanTokens inner' (line + lines) skip scan (c :: passed) rest) :=
        .bind (pushValue_moves scan token) fun scan _ => others _ scan _
      rw [scanTokens, scanTokens, startsNumber_moved]
      refine .ite (fun _ => others 0 scan _) fun _ => .ite (fun _ => ?quoted) fun _ =>
        .ite (fun _ => ?opening) fun _ => .ite (fun _ => ?object) fun _ =>
          .ite (fun _ => ?list) fun _ => .ite (fun _ => ?digits) fun _ => ?_
      case quoted => exact .bind .require fun literal _ => pushed (.text _) _
      case opening =>
        exact .bind (readParenthesized_moves moves short) fun read _ => pushed read.1 _
      case object => exact .bind (readLiteral_moves _ _ _) fun read _ => pushed (.object read.1) _
      case list => exact .bind (readLiteral_moves _ _ _) fun read _ => pushed (.array read.1) _
      case digits => exact .bind (readNumber_moves _ _) fun read _ => pushed read.1 _
      cases Operator.longestAt? (c :: rest) with
      | some op => exact .bind (pushOperator_moves scan op) fun scan _ => others _ scan _
      | none =>
        exact .ite (fun _ => .bind (readWord_moves moves short scan) fun read _ =>
          others _ read.1 _) fun _ => .fail

theorem readExpression_moves :
    (readExpression inner text line).Moves stops lines (tokensMoved lines)
      (readExpression inner' text (line + lines)) := by
  refine .bind (scanTokens_moves moves short 0 ⟨[], false⟩ []) fun scan _ => ?_
  rw [Scan.endsInValue_moved]
  refine .refusing fun _ => .pure ?_
  rw [Scan.moved, tokensMoved_eq_map, tokensMoved_eq_map, List.map_reverse]

/-! ### Statements -/

theorem readAssignment_moves (constant : Bool) :
    (readAssignment inner text line constant).Moves stops lines (Stmt.moved lines)
      (readAssignment inner' text (line + lines) constant) := by
  unfold readAssignment
  rcases cut : splitAssignment text with _ | ⟨left, op, right⟩
  · exact .refusing fun _ => .bind (readExpression_moves moves short) fun tokens _ =>
      .pure (congrArg _ (ofTokens_moved lines tokens))
  · have sides := length_of_splitAssignment cut
    have target : (trim left).length ≤ bound := (length_trim_le left).trans (by omega)
    have value : (trim right).length ≤ bound := (length_trim_le right).trans (by omega)
    refine .refusing fun _ => ?_
    rcases splitDeclaration (trim left) with _ | ⟨type, name⟩
    · exact .refusing fun _ => .bind (readChain_moves moves target) fun chain _ =>
        .bind (readExpression_moves moves value) fun tokens _ => .pure rfl
    · exact .refusing fun _ => .bind .lift fun type _ =>
        .bind (readExpression_moves moves value) fun tokens _ => .pure rfl

theorem readReturn_moves :
    (readReturn inner text line).Moves stops lines (Stmt.moved lines)
      (readReturn inner' text (line + lines)) := by
  have value : (trim (text.drop "return".length)).length ≤ bound := by
    refine (length_trim_le _).trans ?_
    rw [List.length_drop]
    omega
  unfold readReturn
  exact .ite (fun _ => .done) fun _ => .bind (readExpression_moves moves value) fun tokens _ =>
    .pure rfl

theorem readConstant_moves :
    (readConstant inner text line).Moves stops lines (Stmt.moved lines)
      (readConstant inner' text (line + lines)) := by
  have declaration : (trim (text.drop "const".length)).length ≤ bound := by
    refine (length_trim_le _).trans ?_
    rw [List.length_drop]
    omega
  unfold readConstant
  dsimp only
  cases Keyword.leading? (trim (text.drop "const".length)) with
  | none => exact readAssignment_moves moves declaration true
  | some keyword =>
    exact .ite (fun _ => readAssignment_moves moves declaration true) fun _ => .fail

theorem readFunction_moves :
    (readFunction inner text line).Moves stops lines (Stmt.moved lines)
      (readFunction inner' text (line + lines)) := by
  unfold readFunction
  dsimp only
  generalize ahead : (((Cursor.start text).advance "func".length).advance
    (((Cursor.start text).advance "func".length).ahead.takeWhile fun c => c != '(').length) = cursor
  have remaining : cursor.ahead.length ≤ bound := by
    rw [← ahead]
    simp only [Cursor.advance_ahead, List.length_drop]
    show text.length - _ - _ ≤ bound
    omega
  refine .refusing fun _ => .bind .require fun header _ => .refusing fun _ =>
    .bind .lift fun returns _ => ?_
  rcases taken : cursor.takeBalanced '(' ')' with ⟨interior | interior, after⟩
  · exact .fail
  · obtain ⟨_, behind⟩ := length_of_takeBalanced taken
    exact .bind .lift fun params _ => .bind (readBlock_moves moves (by omega)) fun block _ =>
      .bind (ensureEnd_moves _) fun _ _ => .pure rfl

theorem readConditional_moves (keyword : Keyword) :
    (readConditional inner keyword text line).Moves stops lines
      (Prod.map (tokensMoved lines) (bodyMoved lines))
      (readConditional inner' keyword text (line + lines)) := by
  unfold readConditional
  generalize ahead : ((Cursor.start text).advance keyword.spelling.length).skipBlank = cursor
  have remaining : cursor.ahead.length ≤ bound := by
    rw [← ahead]
    refine (length_skipBlank_le _).trans ?_
    rw [Cursor.advance_ahead, List.length_drop]
    show text.length - _ ≤ bound
    omega
  refine .refusing fun _ => ?_
  rcases taken : cursor.takeBalanced '(' ')' with ⟨interior | interior, after⟩
  · exact .fail
  · obtain ⟨inside, behind⟩ := length_of_takeBalanced taken
    exact .bind (moves.expression _ _ (by omega)) fun condition _ =>
      .bind (readBlock_moves moves (by omega)) fun block _ =>
        .bind (ensureEnd_moves _) fun _ _ => .pure rfl

/-- **A statement further down** is the statement, moved down. -/
theorem readCommand_moves :
    (readCommand inner text line).Moves stops lines (Stmt.moved lines)
      (readCommand inner' text (line + lines)) := by
  have trimmed : (trim text).length ≤ bound := (length_trim_le text).trans short
  unfold readCommand
  dsimp only
  rcases Keyword.leading? (trim text) with _ | keyword
  · exact readAssignment_moves moves trimmed false
  · cases keyword with
    | returns => exact readReturn_moves moves trimmed
    | constant => exact readConstant_moves moves trimmed
    | await => exact readAssignment_moves moves trimmed false
    | imports => exact readImport_moves _
    | function =>
      exact .ite (fun _ => readFunction_moves moves trimmed) fun _ =>
        readAssignment_moves moves trimmed false
    | ifThen =>
      exact .bind (readConditional_moves moves trimmed .ifThen) fun read _ => .pure rfl
    | otherwise => exact .fail
    | loop => exact .bind (readConditional_moves moves trimmed .loop) fun read _ => .pure rfl

theorem readElse_moves :
    (readElse inner text line).Moves stops lines (Otherwise.moved lines)
      (readElse inner' text (line + lines)) := by
  have rest : (trimStart ((trim text).drop "else".length)).length ≤ bound := by
    have trimmed := length_trim_le text
    have dropped := List.length_dropWhile_le isBlank ((trim text).drop "else".length)
    rw [List.length_drop] at dropped
    unfold trimStart
    omega
  unfold readElse
  exact .ite (fun _ => .bind (readConditional_moves moves ((length_trim_le _).trans rest) .ifThen)
    fun read _ => .pure rfl) fun _ => .bind (readBlock_moves moves rest) fun block _ =>
      .bind (ensureEnd_moves _) fun _ _ => .pure rfl

end Texts

/-! ### Blocks -/

theorem readStatement_moves (read : List Stmt)
    {statement : Statement} (short : statement.text.length ≤ bound) :
    (readStatement inner read statement).Moves stops lines (List.map (Stmt.moved lines))
      (readStatement inner' (read.map (Stmt.moved lines)) (statement.moved lines)) := by
  unfold readStatement
  refine .ite (fun _ => .done) fun _ =>
    .ite (fun _ => .bind (readElse_moves moves short).recover fun branch? _ => ?_)
      fun _ => .bind (readCommand_moves moves short).recover fun stmt? _ => ?_
  · cases branch? with
    | none => exact .pure rfl
    | some branch => exact attachElse_moves branch read
  · cases stmt? with
    | none | some => exact .pure rfl

theorem readStatements_moves (read : List Stmt)
    {statements : List Statement} (short : ∀ statement ∈ statements, statement.text.length ≤ bound) :
    (readStatements inner read statements).Moves stops lines (List.map (Stmt.moved lines))
      (readStatements inner' (read.map (Stmt.moved lines))
        (statements.map (Statement.moved lines))) := by
  induction statements generalizing read with
  | nil =>
    rw [List.map_nil, readStatements, readStatements, ← List.map_reverse]
    exact .done
  | cons statement rest ih =>
    obtain ⟨first, others⟩ := List.forall_mem_cons.mp short
    exact .bind (readStatement_moves moves read first) fun read _ => ih read others

theorem readBody_moves (short : text.length ≤ bound) :
    (readBody inner text line).Moves stops lines (bodyMoved lines)
      (readBody inner' text (line + lines)) := by
  have all : ∀ statement ∈ (splitStatements text line).1, statement.text.length ≤ bound :=
    fun statement member => (length_of_mem_splitStatements member).trans short
  unfold readBody
  rw [splitStatements_moved, funext (bodyMoved_eq_map lines)]
  exact .bind .collect fun _ _ => readStatements_moves moves [] all

end Readers

/-! ### Depths -/

/-- **Readers built for different depths agree**, and so do their statements. -/
theorem Inner.upTo_moves (lines depth depth' : Nat) :
    (Inner.upTo depth).Moves False lines (min depth depth') (Inner.upTo depth') := by
  induction depth generalizing depth' with
  | zero => exact ⟨fun _ _ short => by simp at short, fun _ _ short => by simp at short⟩
  | succ depth ih =>
    cases depth' with
    | zero => exact ⟨fun _ _ short => by simp at short, fun _ _ short => by simp at short⟩
    | succ depth' =>
      refine ⟨fun text line short => readExpression_moves (ih depth') ?_,
        fun text line short => readBody_moves (ih depth') ?_⟩
      all_goals
        rw [Nat.succ_min_succ] at short
        exact Nat.le_of_lt_succ short

theorem readStatements_upTo {depth depth' : Nat} (read : List Stmt) {statements : List Statement}
    (short : ∀ statement ∈ statements, statement.text.length ≤ min depth depth') :
    readStatements (Inner.upTo depth') read statements =
      readStatements (Inner.upTo depth) read statements := by
  have unmoved : List.map (Stmt.moved 0) = id := by
    funext body
    rw [← bodyMoved_eq_map, bodyMoved_zero, id]
  have stays : Statement.moved 0 = id := rfl
  have alike := readStatements_moves (Inner.upTo_moves 0 depth depth') read short
  rw [stays, List.map_id, unmoved] at alike
  exact alike.eq_of_zero

end TypedScript
