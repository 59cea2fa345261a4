/-
**The same script some lines further down.** Text that is put in front of a script moves its
statements and its diagnostics down, and changes nothing else about them.

* `Stmt.moved`, `Diagnostic.moved`: trees and diagnostics, moved down by a number of lines.
-/

import TypedScript.Proofs.Splitting.Newlines
import TypedScript.Syntax.Blocks

namespace TypedScript

/-! ### Trees -/

mutual

def Token.moved (lines : Nat) : Token → Token
  | .number value => .number value
  | .text value => .text value
  | .bool value => .bool value
  | .null => .null
  | .access base steps => .access base (stepsMoved lines steps)
  | .operator op => .operator op
  | .group tokens => .group (tokensMoved lines tokens)
  | .object literal => .object literal
  | .array literal => .array literal
  | .call base steps arguments =>
    .call base (stepsMoved lines steps) (argumentsMoved lines arguments)
  | .lambda params body => .lambda params (bodyMoved lines body)
  | .await operand => .await (operand.moved lines)

def tokensMoved (lines : Nat) : List Token → List Token
  | [] => []
  | token :: rest => token.moved lines :: tokensMoved lines rest

def stepsMoved (lines : Nat) : List Step → List Step
  | [] => []
  | .property name :: rest => .property name :: stepsMoved lines rest
  | .index tokens :: rest => .index (tokensMoved lines tokens) :: stepsMoved lines rest

def argumentsMoved (lines : Nat) : List (List Token) → List (List Token)
  | [] => []
  | tokens :: rest => tokensMoved lines tokens :: argumentsMoved lines rest

/-- What a statement does, with all statements inside it moved down. -/
def Kind.moved (lines : Nat) : Kind → Kind
  | .declare name type value constant => .declare name type (tokensMoved lines value) constant
  | .modify base steps op value =>
    .modify base (stepsMoved lines steps) op (tokensMoved lines value)
  | .expression tokens => .expression (tokensMoved lines tokens)
  | .function name params returns body => .function name params returns (bodyMoved lines body)
  | .branch condition body otherwise =>
    .branch (tokensMoved lines condition) (bodyMoved lines body) (otherwise.moved lines)
  | .loop condition body => .loop (tokensMoved lines condition) (bodyMoved lines body)
  | .call base steps arguments =>
    .call base (stepsMoved lines steps) (argumentsMoved lines arguments)
  | .imports path => .imports path
  | .returns none => .returns none
  | .returns (some tokens) => .returns (some (tokensMoved lines tokens))

def Otherwise.moved (lines : Nat) : Otherwise → Otherwise
  | .nothing => .nothing
  | .block body => .block (bodyMoved lines body)
  | .elseIf line condition body otherwise =>
    .elseIf (line + lines) (tokensMoved lines condition) (bodyMoved lines body)
      (otherwise.moved lines)

/-- Statements, moved down. -/
def bodyMoved (lines : Nat) : List Stmt → List Stmt
  | [] => []
  | .mk line kind :: rest => .mk (line + lines) (kind.moved lines) :: bodyMoved lines rest

end

/-- A statement, moved down. -/
def Stmt.moved (lines : Nat) (stmt : Stmt) : Stmt :=
  .mk (stmt.line + lines) (stmt.kind.moved lines)

theorem bodyMoved_eq_map (lines : Nat) (body : List Stmt) :
    bodyMoved lines body = body.map (Stmt.moved lines) := by
  induction body with
  | nil => rfl
  | cons stmt rest ih =>
    obtain ⟨line, kind⟩ := stmt
    rw [bodyMoved, ih]
    rfl

theorem tokensMoved_eq_map (lines : Nat) (tokens : List Token) :
    tokensMoved lines tokens = tokens.map (Token.moved lines) := by
  induction tokens with
  | nil => rfl
  | cons token rest ih => rw [tokensMoved, ih, List.map_cons]

mutual

theorem Token.moved_zero : ∀ token : Token, token.moved 0 = token
  | .number _ | .text _ | .bool _ | .null | .operator _ | .object _ | .array _ => rfl
  | .access base steps => by rw [Token.moved, stepsMoved_zero steps]
  | .group tokens => by rw [Token.moved, tokensMoved_zero tokens]
  | .call base steps arguments => by
    rw [Token.moved, stepsMoved_zero steps, argumentsMoved_zero arguments]
  | .lambda params body => by rw [Token.moved, bodyMoved_zero body]
  | .await operand => by rw [Token.moved, Token.moved_zero operand]

theorem tokensMoved_zero : ∀ tokens : List Token, tokensMoved 0 tokens = tokens
  | [] => rfl
  | token :: rest => by rw [tokensMoved, Token.moved_zero token, tokensMoved_zero rest]

theorem stepsMoved_zero : ∀ steps : List Step, stepsMoved 0 steps = steps
  | [] => rfl
  | .property name :: rest => by rw [stepsMoved, stepsMoved_zero rest]
  | .index tokens :: rest => by rw [stepsMoved, tokensMoved_zero tokens, stepsMoved_zero rest]

theorem argumentsMoved_zero : ∀ arguments : List (List Token), argumentsMoved 0 arguments = arguments
  | [] => rfl
  | tokens :: rest => by rw [argumentsMoved, tokensMoved_zero tokens, argumentsMoved_zero rest]

theorem Kind.moved_zero : ∀ kind : Kind, kind.moved 0 = kind
  | .declare name type value constant => by rw [Kind.moved, tokensMoved_zero value]
  | .modify base steps op value => by
    rw [Kind.moved, stepsMoved_zero steps, tokensMoved_zero value]
  | .expression tokens | .returns (some tokens) => by rw [Kind.moved, tokensMoved_zero tokens]
  | .function name params returns body => by rw [Kind.moved, bodyMoved_zero body]
  | .branch condition body otherwise => by
    rw [Kind.moved, tokensMoved_zero condition, bodyMoved_zero body,
      Otherwise.moved_zero otherwise]
  | .loop condition body => by rw [Kind.moved, tokensMoved_zero condition, bodyMoved_zero body]
  | .call base steps arguments => by
    rw [Kind.moved, stepsMoved_zero steps, argumentsMoved_zero arguments]
  | .imports _ | .returns none => rfl

theorem Otherwise.moved_zero : ∀ otherwise : Otherwise, otherwise.moved 0 = otherwise
  | .nothing => rfl
  | .block body => by rw [Otherwise.moved, bodyMoved_zero body]
  | .elseIf line condition body otherwise => by
    rw [Otherwise.moved, tokensMoved_zero condition, bodyMoved_zero body,
      Otherwise.moved_zero otherwise, Nat.add_zero]

theorem bodyMoved_zero : ∀ body : List Stmt, bodyMoved 0 body = body
  | [] => rfl
  | .mk line kind :: rest => by
    rw [bodyMoved, Kind.moved_zero kind, bodyMoved_zero rest, Nat.add_zero]

end

theorem Token.isValue_moved (lines : Nat) (token : Token) :
    (token.moved lines).isValue = token.isValue := by
  cases token <;> rfl

theorem Otherwise.attach?_moved (lines : Nat) (added : Otherwise) : ∀ otherwise : Otherwise,
    (added.moved lines).attach? (otherwise.moved lines) =
      (added.attach? otherwise).map (Otherwise.moved lines)
  | .nothing => rfl
  | .block _ => rfl
  | .elseIf line condition body otherwise => by
    rw [Otherwise.moved, Otherwise.attach?, Otherwise.attach?,
      Otherwise.attach?_moved lines added otherwise]
    cases added.attach? otherwise <;> rfl

/-- A branch is put behind a statement that was moved down as it is behind the statement. -/
theorem Stmt.attach?_moved (lines : Nat) (added : Otherwise) (stmt : Stmt) :
    (stmt.moved lines).attach? (added.moved lines) =
      (stmt.attach? added).map (Stmt.moved lines) := by
  obtain ⟨line, kind⟩ := stmt
  cases kind with
  | branch condition body otherwise =>
    rw [Stmt.moved, Stmt.kind, Kind.moved, Stmt.attach?, Stmt.attach?, Otherwise.attach?_moved]
    cases added.attach? otherwise <;> rfl
  | returns value? => cases value? <;> rfl
  | _ => rfl

/-! ### Readings -/

/-- The end of a reading, moved down. -/
def Stop.moved (lines : Nat) : Stop → Stop
  | .failed diagnostic => .failed (diagnostic.moved lines)
  | .exhausted => .exhausted

namespace Reading

variable {α β γ δ : Type} {stops : Prop} {lines line : Nat}

/-- The second reading gives what the first one gives, moved down. They may only run out of depth if
that is allowed. -/
structure Moves (stops : Prop) (lines : Nat) (move : α → β) (reading : Reading α)
    (moved : Reading β) : Prop where
  collected : moved.collected = reading.collected.map (Diagnostic.moved lines)
  outcome : moved.outcome = (reading.outcome.map move).mapError (Stop.moved lines)
  enough : reading.outcome = .error .exhausted → stops

namespace Moves

variable {move : α → β} {reading other : Reading α} {moved moved' : Reading β}
  {diagnostics : List Diagnostic} {value : α} {cause : Cause} {condition : Prop}

theorem given :
    Moves stops lines move ⟨diagnostics, .ok value⟩
      ⟨diagnostics.map (Diagnostic.moved lines), .ok (move value)⟩ :=
  ⟨rfl, rfl, nofun⟩

theorem done : Moves stops lines move (.done value) (.done (move value)) :=
  given

theorem pure {value' : β} (same : value' = move value) :
    Moves stops lines move (Pure.pure value) (Pure.pure value') := by
  subst same
  exact done

theorem fail : Moves stops lines move (.fail cause line) (.fail cause (line + lines)) :=
  ⟨rfl, rfl, nofun⟩

theorem bind {follow : γ → δ} {next : α → Reading γ} {next' : β → Reading δ}
    (first : Moves stops lines move reading moved)
    (second : ∀ value, reading.outcome = .ok value →
      Moves stops lines follow (next value) (next' (move value))) :
    Moves stops lines follow (reading >>= next) (moved >>= next') := by
  show Moves stops lines follow (reading.andThen next) (moved.andThen next')
  unfold andThen
  rw [first.outcome, first.collected]
  cases outcome : reading.outcome with
  | error stop =>
    exact ⟨rfl, rfl, fun same => first.enough (outcome.trans (by rw [Except.error.inj same]))⟩
  | ok value =>
    have rest := second value outcome
    refine ⟨?_, rest.outcome, rest.enough⟩
    show _ ++ _ = List.map _ (_ ++ _)
    rw [rest.collected, List.map_append]

theorem ite [Decidable condition] (yes : condition → Moves stops lines move reading moved)
    (no : ¬condition → Moves stops lines move other moved') :
    Moves stops lines move (if condition then reading else other)
      (if condition then moved else moved') := by
  split
  · exact yes ‹_›
  · exact no ‹_›

theorem refusing [Decidable condition] (rest : ¬condition → Moves stops lines move reading moved) :
    Moves stops lines move (if condition then .fail cause line else reading)
      (if condition then .fail cause (line + lines) else moved) :=
  ite (fun _ => fail) rest

theorem require {value? : Option α} :
    Moves stops lines id (Reading.require value? cause line)
      (Reading.require value? cause (line + lines)) := by
  cases value? <;> exact ⟨rfl, rfl, nofun⟩

theorem lift {outcome : Except Cause α} :
    Moves stops lines id (Reading.lift line outcome) (Reading.lift (line + lines) outcome) := by
  cases outcome <;> exact ⟨rfl, rfl, nofun⟩

theorem collect :
    Moves stops lines id (Reading.collect diagnostics)
      (Reading.collect (diagnostics.map (Diagnostic.moved lines))) :=
  given

theorem recover (moves : Moves stops lines move reading moved) :
    Moves stops lines (Option.map move) reading.recover moved.recover := by
  obtain ⟨collected, outcome⟩ := reading
  obtain ⟨collected', outcome'⟩ := moved
  obtain ⟨rfl, rfl, enough⟩ := moves
  rcases outcome with (diagnostic | _) | value
  · exact ⟨by simp [Reading.recover, Stop.moved, Except.map, Except.mapError], rfl, nofun⟩
  · exact ⟨rfl, rfl, fun _ => enough rfl⟩
  · exact ⟨rfl, rfl, nofun⟩

theorem eq_of_zero {moved : Reading α} (moves : Moves stops 0 id reading moved) :
    moved = reading := by
  obtain ⟨collected, outcome⟩ := reading
  obtain ⟨collected', outcome'⟩ := moved
  obtain ⟨rfl, rfl, -⟩ := moves
  rcases outcome with (diagnostic | _) | value
  all_goals
    show Reading.mk (collected.map id) _ = _
    rw [List.map_id]
    rfl

end Moves

end Reading

/-- **The cutting of a text** that starts further down. -/
theorem splitStatements_moved (lines : Nat) (text : List Char) (line : Nat) :
    splitStatements text (line + lines) =
      ((splitStatements text line).1.map (Statement.moved lines),
        (splitStatements text line).2.map (Diagnostic.moved lines)) := by
  have restarts : (Splitter.start (line + lines)).run [] =
      ((Splitter.start line).run []).behind ⟨lines, [], []⟩ := rfl
  exact splitStatements_restarts restarts text

end TypedScript
