/-
**Script trees.** An expression is a flat list of tokens, operands and operators as they are
written; operators have no precedence. Statements carry the line they start on.
-/

import TypedScript.Json.Basic
import TypedScript.Operator
import TypedScript.Types.Basic

namespace TypedScript

/-- A parameter of a function. -/
structure Param where
  name : String
  type : Ty
  deriving DecidableEq, Repr

/-- A list or object literal, with the type that all its values have. -/
structure Literal where
  value : Json
  element : Ty
  deriving Repr

mutual

/-- One part of an expression. -/
inductive Token where
  | number (value : Binary64)
  | text (value : String)
  | bool (value : Bool)
  | null
  /-- A name and the steps taken from it, as in `a.b[c]`. -/
  | access (base : String) (steps : List Step)
  | operator (op : Operator)
  | group (tokens : List Token)
  | object (literal : Literal)
  | array (literal : Literal)
  | call (base : String) (steps : List Step) (arguments : List (List Token))
  | lambda (params : List Param) (body : List Stmt)
  | await (operand : Token)

/-- One step of an access. -/
inductive Step where
  | property (name : String)
  | index (tokens : List Token)

/-- A statement and the line it starts on. -/
inductive Stmt where
  | mk (line : Nat) (kind : Kind)

/-- What a statement does. -/
inductive Kind where
  | declare (name : String) (type : Ty) (value : List Token) (constant : Bool)
  | modify (base : String) (steps : List Step) (op : Operator) (value : List Token)
  | expression (tokens : List Token)
  | function (name : String) (params : List Param) (returns : Ty) (body : List Stmt)
  | branch (condition : List Token) (body : List Stmt) (otherwise : Otherwise)
  | loop (condition : List Token) (body : List Stmt)
  /-- A statement that is a single call. -/
  | call (base : String) (steps : List Step) (arguments : List (List Token))
  | imports (path : String)
  | returns (value : Option (List Token))

/-- What a branch does when its condition fails. -/
inductive Otherwise where
  | nothing
  | block (body : List Stmt)
  | elseIf (line : Nat) (condition : List Token) (body : List Stmt) (otherwise : Otherwise)

end

/-- A name and the steps taken from it. -/
structure Chain where
  base : String
  steps : List Step

/-- Whether a token is no operator. -/
def Token.isValue : Token → Bool
  | .operator _ => false
  | _ => true

theorem Token.exists_operator {token : Token} (noValue : token.isValue = false) :
    ∃ op, token = .operator op := by
  cases token with
  | operator op => exact ⟨op, rfl⟩
  | _ => contradiction

/-- The line that a statement starts on. -/
def Stmt.line : Stmt → Nat
  | .mk line _ => line

/-- What a statement does. -/
def Stmt.kind : Stmt → Kind
  | .mk _ kind => kind

/-- Puts a further branch at the end of a chain of `else if`. -/
def Otherwise.attach? (added : Otherwise) : Otherwise → Option Otherwise
  | .nothing => some added
  | .block _ => none
  | .elseIf line condition body otherwise =>
    match Otherwise.attach? added otherwise with
    | some otherwise => some (.elseIf line condition body otherwise)
    | none => none

/-- Puts an `else` branch behind a statement, which has to be an `if`. -/
def Stmt.attach? (added : Otherwise) : Stmt → Option Stmt
  | .mk line (.branch condition body otherwise) =>
    match Otherwise.attach? added otherwise with
    | some otherwise => some (.mk line (.branch condition body otherwise))
    | none => none
  | _ => none

end TypedScript
