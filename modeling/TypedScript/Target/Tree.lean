/-
**Generated programs.** The JavaScript that scripts are compiled to, as trees. Trees keep where
parentheses stand, so that there is one way to write them.
-/

import TypedScript.Json.Basic
import TypedScript.Operator

namespace TypedScript.Target

mutual

/-- An expression of a program. -/
inductive Expr where
  | number (value : Binary64)
  | text (value : String)
  | bool (value : Bool)
  | null
  | array (value : Json)
  /-- An object literal, in parentheses. -/
  | object (value : Json)
  | name (name : String)
  | member (receiver : Expr) (name : String)
  | index (receiver : Expr) (index : Expr)
  | call (callee : Expr) (arguments : List Expr)
  | not (operand : Expr)
  /-- `-` in front of an operand, in parentheses. -/
  | minus (operand : Expr)
  | await (operand : Expr)
  /-- A binary operation, in parentheses. -/
  | binary (op : Operator) (left right : Expr)
  /-- An expression in parentheses. -/
  | group (inner : Expr)
  /-- Truncation to a signed integer of 32 bits. -/
  | toInt (inner : Expr)
  /-- Truncation to an unsigned integer of 32 bits. -/
  | toUint (inner : Expr)
  | arrow (async : Bool) (params : List String) (body : List Stmt)

/-- A generated statement. -/
inductive Stmt where
  | declare (constant : Bool) (name : String) (value : Expr)
  | assign (target : Expr) (op : Operator) (value : Expr)
  | evaluate (value : Expr)
  | function (async : Bool) (name : String) (params : List String) (body : List Stmt)
  | branch (condition : Expr) (body : List Stmt) (alternative : Alternative)
  | loop (condition : Expr) (body : List Stmt)
  | returns (value : Option Expr)

/-- What follows the block of a branch. -/
inductive Alternative where
  | nothing
  | block (body : List Stmt)
  | elseIf (condition : Expr) (body : List Stmt) (alternative : Alternative)

end

end TypedScript.Target
