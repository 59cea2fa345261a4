/-
**Reading comes to an end.** Readers call each other in circles: an expression has lambdas, a lambda
has statements, a statement has expressions. On the way around, some text is always cut out of
brackets, and that text is shorter than the text it was cut from. So the circular definition has
exactly one solution, and a depth as large as the number of characters is enough to compute it.

* `Inner.AgreesBelow`, `ReadAlike`: readers that agree on shorter texts read a text alike.
-/

import TypedScript.Proofs.Parsing.Joined

namespace TypedScript

open Text

/-! ### Readers that agree on shorter texts -/

/-- Readers that agree on shorter texts. -/
structure Inner.AgreesBelow (bound : Nat) (inner inner' : Inner) : Prop where
  expression : ∀ text line, text.length < bound →
    inner'.expression text line = inner.expression text line
  body : ∀ text line, text.length < bound → inner'.body text line = inner.body text line

/-- All readers of scripts read a text alike, whichever of two readers they have for the text inside
brackets. -/
structure ReadAlike (inner inner' : Inner) (text : List Char) (line : Nat) : Prop where
  body : readBody inner' text line = readBody inner text line
  block : ∀ passed, readBlock inner' ⟨passed, text⟩ line = readBlock inner ⟨passed, text⟩ line
  command : readCommand inner' text line = readCommand inner text line
  otherwise : readElse inner' text line = readElse inner text line
  expression : readExpression inner' text line = readExpression inner text line
  parenthesized : ∀ passed,
    readParenthesized inner' ⟨passed, text⟩ line = readParenthesized inner ⟨passed, text⟩ line
  chain : readChain inner' text line = readChain inner text line

namespace Reading.Moves

variable {α : Type} {reading moved : Reading α} {move : α → α}

theorem eq_of_stays {stops : Prop} (moves : Moves stops 0 move reading moved)
    (stays : ∀ value, move value = value) : moved = reading := by
  rw [show move = id from funext stays] at moves
  exact moves.eq_of_zero

theorem of_eq (same : moved = reading) (stays : ∀ value, move value = value) :
    Moves True 0 move reading moved := by
  rw [show move = id from funext stays, same]
  refine ⟨(List.map_id _).symm, ?_, fun _ => trivial⟩
  rcases reading.outcome with (diagnostic | _) | value <;> rfl

end Reading.Moves

theorem Stmt.moved_zero (stmt : Stmt) : stmt.moved 0 = stmt := by
  obtain ⟨line, kind⟩ := stmt
  rw [Stmt.moved, Stmt.kind, Kind.moved_zero]
  rfl

theorem Chain.moved_zero (chain : Chain) : chain.moved 0 = chain := by
  rw [Chain.moved, stepsMoved_zero]

namespace Inner.AgreesBelow

variable {inner inner' : Inner} {bound : Nat}

theorem moves (agree : AgreesBelow bound inner inner') : inner.Moves True 0 bound inner' where
  expression text line short := .of_eq (agree.expression text line short) tokensMoved_zero
  body text line short := .of_eq (agree.body text line short) bodyMoved_zero

/-- **Only shorter texts are left to the readers for text inside brackets**: what these do with any
other text has no influence. -/
theorem readAlike (agree : AgreesBelow bound inner inner') {text : List Char}
    (short : text.length ≤ bound) (line : Nat) : ReadAlike inner inner' text line where
  body := (readBody_moves agree.moves short).eq_of_stays bodyMoved_zero
  block _ := Reading.Moves.eq_of_stays (readBlock_moves agree.moves short)
    fun _ => by rw [Prod.map, bodyMoved_zero, id]
  command := (readCommand_moves agree.moves short).eq_of_stays Stmt.moved_zero
  otherwise := (readElse_moves agree.moves short).eq_of_stays Otherwise.moved_zero
  expression := (readExpression_moves agree.moves short).eq_of_stays tokensMoved_zero
  parenthesized _ := Reading.Moves.eq_of_stays (readParenthesized_moves agree.moves short)
    fun _ => by rw [Prod.map, Token.moved_zero, id]
  chain := (readChain_moves agree.moves short).eq_of_stays Chain.moved_zero

end Inner.AgreesBelow

/-! ### The circular definition and its solution -/

namespace Inner

/-- Readers for text inside brackets that read it as any other text: an expression as
`readExpression` does, with themselves for the brackets inside, and a block as `readBody` does. -/
structure IsRecursive (inner : Inner) : Prop where
  expression : ∀ text line, inner.expression text line = readExpression inner text line
  body : ∀ text line, inner.body text line = readBody inner text line

/-- Readers for text inside brackets, however deep it is nested. -/
def unbounded : Inner :=
  ⟨fun text line => readExpression (Inner.upTo text.length) text line,
   fun text line => readBody (Inner.upTo text.length) text line⟩

theorem upTo_agreesBelow (depth depth' : Nat) :
    AgreesBelow (min depth depth') (Inner.upTo depth) (Inner.upTo depth') where
  expression text line short :=
    ((Inner.upTo_moves 0 depth depth').expression text line short).eq_of_stays tokensMoved_zero
  body text line short :=
    ((Inner.upTo_moves 0 depth depth').body text line short).eq_of_stays bodyMoved_zero

/-- Readers that were built for a depth read shorter texts as the readers without a bound. -/
theorem upTo_agreesBelow_unbounded (depth : Nat) :
    AgreesBelow depth (Inner.upTo depth) unbounded := by
  cases depth with
  | zero => exact ⟨fun _ _ short => absurd short (Nat.not_lt_zero _),
      fun _ _ short => absurd short (Nat.not_lt_zero _)⟩
  | succ depth =>
    have alike (text : List Char) (line : Nat) (short : text.length < depth + 1) :
        ReadAlike (Inner.upTo depth) (Inner.upTo text.length) text line :=
      (upTo_agreesBelow depth text.length).readAlike
        (le_min (Nat.le_of_lt_succ short) le_rfl) line
    exact ⟨fun text line short => (alike text line short).expression,
      fun text line short => (alike text line short).body⟩

/-- A depth as large as the number of characters is as good as none. -/
theorem upTo_readAlike_unbounded {text : List Char} {depth : Nat} (enough : text.length ≤ depth)
    (line : Nat) : ReadAlike (Inner.upTo depth) unbounded text line :=
  (upTo_agreesBelow_unbounded depth).readAlike enough line

theorem unbounded_isRecursive : unbounded.IsRecursive where
  expression text line := (upTo_readAlike_unbounded (le_refl text.length) line).expression.symm
  body text line := (upTo_readAlike_unbounded (le_refl text.length) line).body.symm

/-- The circular definition leaves no choice, one character after the other. -/
theorem IsRecursive.agreesBelow {inner inner' : Inner} (recursive : inner.IsRecursive)
    (recursive' : inner'.IsRecursive) (bound : Nat) : AgreesBelow bound inner inner' := by
  induction bound with
  | zero => exact ⟨fun _ _ short => absurd short (Nat.not_lt_zero _),
      fun _ _ short => absurd short (Nat.not_lt_zero _)⟩
  | succ bound ih =>
    have alike (text : List Char) (line : Nat) (short : text.length < bound + 1) :=
      ih.readAlike (Nat.le_of_lt_succ short) line
    refine ⟨fun text line short => ?_, fun text line short => ?_⟩
    · rw [recursive'.expression, (alike text line short).expression, ← recursive.expression]
    · rw [recursive'.body, (alike text line short).body, ← recursive.body]

theorem IsRecursive.eq_unbounded {inner : Inner} (recursive : inner.IsRecursive) :
    inner = unbounded := by
  have agree (text : List Char) := unbounded_isRecursive.agreesBelow recursive (text.length + 1)
  obtain ⟨expression, body⟩ := inner
  rw [unbounded, Inner.mk.injEq]
  exact ⟨funext₂ fun text line => (agree text).expression text line (Nat.lt_succ_self _),
    funext₂ fun text line => (agree text).body text line (Nat.lt_succ_self _)⟩

end Inner

/-! ### Depths that are enough -/

/-- No reader of scripts gives a text up because it is nested too deep. -/
structure ReadThrough (inner : Inner) (text : List Char) (line : Nat) : Prop where
  body : (readBody inner text line).outcome ≠ .error .exhausted
  block : ∀ passed, (readBlock inner ⟨passed, text⟩ line).outcome ≠ .error .exhausted
  command : (readCommand inner text line).outcome ≠ .error .exhausted
  otherwise : (readElse inner text line).outcome ≠ .error .exhausted
  expression : (readExpression inner text line).outcome ≠ .error .exhausted
  parenthesized : ∀ passed,
    (readParenthesized inner ⟨passed, text⟩ line).outcome ≠ .error .exhausted
  chain : (readChain inner text line).outcome ≠ .error .exhausted

/-- **A depth as large as the number of characters is never used up.** -/
theorem Inner.upTo_readThrough {text : List Char} {depth : Nat} (enough : text.length ≤ depth)
    (line : Nat) : ReadThrough (Inner.upTo depth) text line := by
  have moves := Inner.upTo_moves 0 depth depth
  rw [min_self] at moves
  exact {
    body := (readBody_moves moves enough).enough
    block := fun _ => (readBlock_moves moves enough).enough
    command := (readCommand_moves moves enough).enough
    otherwise := (readElse_moves moves enough).enough
    expression := (readExpression_moves moves enough).enough
    parenthesized := fun _ => (readParenthesized_moves moves enough).enough
    chain := (readChain_moves moves enough).enough }

/-- A whole script has statements, some of which may have been refused. -/
theorem readBody_within (source : List Char) :
    ∃ body, (readBody (Inner.within source) source 1).outcome = .ok body := by
  obtain ⟨body, read⟩ := readStatements_within source
  exact ⟨body, read⟩

/-- **Reading terminates on every text.** No statement of a text is longer than the text, and what
is taken out of brackets is shorter than the text ahead. Readers leave nothing but shorter texts to
the readers for text inside brackets, so there is exactly one way to read text inside brackets as
any other text. A depth as large as the number of characters gives it, and no reader ever uses that
depth up; in particular every script is read to its end. -/
theorem reading_terminates :
    (∀ text line, ∀ statement ∈ (splitStatements text line).1,
      statement.text.length ≤ text.length) ∧
    (∀ (cursor after : Cursor) opener closer interior,
      cursor.takeBalanced opener closer = (some interior, after) →
        interior.length < cursor.ahead.length) ∧
    (∀ inner inner' text line, inner.AgreesBelow text.length inner' →
      ReadAlike inner inner' text line) ∧
    (∃! inner : Inner, inner.IsRecursive) ∧
    (∀ text line depth, text.length ≤ depth →
      ReadThrough (Inner.upTo depth) text line ∧
        ∀ inner : Inner, inner.IsRecursive → ReadAlike (Inner.upTo depth) inner text line) ∧
    ∀ source, ∃ body, (readBody (Inner.within source) source 1).outcome = .ok body := by
  refine ⟨fun text line statement member => length_of_mem_splitStatements member,
    fun cursor after opener closer interior taken => (length_of_takeBalanced taken).1,
    fun inner inner' text line agree => agree.readAlike le_rfl line,
    ⟨Inner.unbounded, Inner.unbounded_isRecursive, fun _ recursive => recursive.eq_unbounded⟩,
    fun text line depth enough => ⟨Inner.upTo_readThrough enough line, fun inner recursive => ?_⟩,
    readBody_within⟩
  rw [recursive.eq_unbounded]
  exact Inner.upTo_readAlike_unbounded enough line

/-- A call of a lambda in which a group is passed on. Three levels of brackets are not enough for
it, its length is. -/
theorem reading_terminates_nested :
    let script := "f(() => \x7bg((1));\x7d);".toList
    let group : Cursor := ⟨['g'], "((1));".toList⟩
    (readBody (Inner.upTo 3) script 1).outcome = .error .exhausted ∧
    ReadThrough (Inner.upTo script.length) script 1 ∧
    ReadAlike (Inner.upTo script.length) Inner.unbounded script 1 ∧
    (∃ body, (readBody (Inner.within script) script 1).outcome = .ok body) ∧
    (splitStatements script 1).1 = [⟨"f(() => \x7bg((1));\x7d)".toList, 1⟩] ∧
    "f(() => \x7bg((1));\x7d)".toList.length ≤ script.length ∧
    (group.takeBalanced '(' ')').1 = some "(1)".toList ∧
    "(1)".toList.length < group.ahead.length := by
  intro script group
  obtain ⟨statements, cuts, -, -, enough, whole⟩ := reading_terminates
  have cut : (splitStatements script 1).1 = [⟨"f(() => \x7bg((1));\x7d)".toList, 1⟩] := by decide
  have taken : group.takeBalanced '(' ')' =
      (some "(1)".toList, ⟨"))1((g".toList, ";".toList⟩) := by decide
  have first := statements script 1 ⟨"f(() => \x7bg((1));\x7d)".toList, 1⟩
    (by rw [cut]; exact .head _)
  obtain ⟨through, solves⟩ := enough script 1 script.length le_rfl
  exact ⟨rfl, through, solves _ Inner.unbounded_isRecursive, whole script, cut, first,
    congrArg Prod.fst taken, cuts group _ _ _ _ taken⟩

end TypedScript
