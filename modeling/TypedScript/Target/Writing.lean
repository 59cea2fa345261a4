/-
**Writing generated programs.** Every statement stands on a line of its own, indented by four spaces
for each block around it.
-/

import TypedScript.Target.Tree

namespace TypedScript.Target

/-- The spaces in front of a line inside `indent` blocks. -/
def padding (indent : Nat) : String :=
  String.ofList (List.replicate (4 * indent) ' ')

/-- The word in front of a function that awaits. -/
def asyncMark (async : Bool) : String :=
  if async then "async " else ""

/-- Lines between braces, the closing one inside `indent` blocks. -/
def braced (indent : Nat) (lines : String) : String :=
  "\x7b\n" ++ lines ++ padding indent ++ "\x7d"

mutual

/-- The text of an expression inside `indent` blocks. -/
def Expr.write (indent : Nat) : Expr → String
  | .number value => String.ofList (Number.literalStyle.write value)
  | .text value => Json.writeText value
  | .bool value => if value then "true" else "false"
  | .null => "null"
  | .array value => value.write
  | .object value => "(" ++ value.write ++ ")"
  | .name name => name
  | .member receiver name => receiver.write indent ++ "." ++ name
  | .index receiver index => receiver.write indent ++ "[" ++ index.write indent ++ "]"
  | .call callee arguments => callee.write indent ++ "(" ++ writeArguments indent arguments ++ ")"
  | .not operand => "!" ++ operand.write indent
  | .minus operand => "(-" ++ operand.write indent ++ ")"
  | .await operand => "(await " ++ operand.write indent ++ ")"
  | .binary op left right =>
    "(" ++ left.write indent ++ " " ++ op.target ++ " " ++ right.write indent ++ ")"
  | .group inner => "(" ++ inner.write indent ++ ")"
  | .toInt inner => "((" ++ inner.write indent ++ ") | 0)"
  | .toUint inner => "(((" ++ inner.write indent ++ ") | 0) >>> 0)"
  | .arrow async params body =>
    asyncMark async ++ "(" ++ String.intercalate ", " params ++ ") => " ++
      braced indent (writeLines (indent + 1) body)

/-- Expressions with commas between them. -/
def writeArguments (indent : Nat) : List Expr → String
  | [] => ""
  | [argument] => argument.write indent
  | argument :: rest => argument.write indent ++ ", " ++ writeArguments indent rest

/-- The text of a statement inside `indent` blocks. -/
def Stmt.write (indent : Nat) : Stmt → String
  | .declare constant name value =>
    (if constant then "const " else "let ") ++ name ++ " = " ++ value.write indent ++ ";"
  | .assign target op value =>
    target.write indent ++ " " ++ op.target ++ " " ++ value.write indent ++ ";"
  | .evaluate value => value.write indent ++ ";"
  | .function async name params body =>
    asyncMark async ++ "function " ++ name ++ "(" ++ String.intercalate ", " params ++ ") " ++
      braced indent (writeLines (indent + 1) body)
  | .branch condition body alternative =>
    "if (" ++ condition.write indent ++ ") " ++ braced indent (writeLines (indent + 1) body) ++
      alternative.write indent
  | .loop condition body =>
    "while (" ++ condition.write indent ++ ") " ++ braced indent (writeLines (indent + 1) body)
  | .returns none => "return;"
  | .returns (some value) => "return " ++ value.write indent ++ ";"

/-- The text behind the block of a branch. -/
def Alternative.write (indent : Nat) : Alternative → String
  | .nothing => ""
  | .block body => " else " ++ braced indent (writeLines (indent + 1) body)
  | .elseIf condition body alternative =>
    " else if (" ++ condition.write indent ++ ") " ++ braced indent (writeLines (indent + 1) body) ++
      alternative.write indent

/-- Several statements, each on its line. -/
def writeLines (indent : Nat) : List Stmt → String
  | [] => ""
  | stmt :: rest => padding indent ++ stmt.write indent ++ "\n" ++ writeLines indent rest

end

/-- Statements between braces. -/
def writeBlock (indent : Nat) (body : List Stmt) : String :=
  braced indent (writeLines (indent + 1) body)

end TypedScript.Target
