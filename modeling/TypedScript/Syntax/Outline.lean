/-
**Outlines.** The outline of a script tree is a JSON value that shows the whole tree. The fields of
an outline stand in a fixed order.
-/

import TypedScript.Json.Pretty
import TypedScript.Syntax.Tree

namespace TypedScript

mutual

/-- The outline of a type. -/
def Ty.outline : Ty → Json
  | .named name params =>
    .object [("kind", .text "type"), ("name", .text name), ("params", .array (outlineTypes params))]
  | .union members => .object [("kind", .text "union"), ("types", .array (outlineTypes members))]

/-- The outlines of several types. -/
def outlineTypes : List Ty → List Json
  | [] => []
  | type :: rest => type.outline :: outlineTypes rest

end

/-- A value under a name. -/
def tagged (name : String) (value : Json) : Json :=
  .object [(name, value)]

/-- The outline of a number; one that is too large is left out. -/
def outlineNumber (value : Binary64) : Json :=
  match value with
  | .finite .. => .float value
  | _ => .null

/-- The outline of a parameter. -/
def Param.outline (param : Param) : Json :=
  .object [("name", .text param.name), ("param_type", param.type.outline)]

/-- The outline of a literal. -/
def Literal.outline (literal : Literal) : Json :=
  .object [("value", literal.value), ("element_type", literal.element.outline)]

/-- An access. -/
def outlineChain (base : String) (steps : List Json) : Json :=
  .object [("base", .text base), ("steps", .array steps)]

/-- A call. -/
def outlineCall (base : String) (steps arguments : List Json) : Json :=
  tagged "FuncActivation"
    (.object [("callee", outlineChain base steps), ("args", .array arguments)])

/-- The outline of a declaration or modification. -/
def outlineAssignment (target : Json) (op : Operator) (value : List Json) (constant : Bool) :
    Json :=
  tagged "Var" (.object
    [("target", target), ("op", .text op.spelling), ("value", .array value),
     ("constant", .bool constant)])

/-- A branch and its other side. -/
def outlineBranch (condition body : List Json) (otherwise : Json) : Json :=
  .object [("condition", .array condition), ("body", .array body), ("else_branch", otherwise)]

mutual

/-- The outline of a token. -/
def Token.outline : Token → Json
  | .number value => tagged "Number" (outlineNumber value)
  | .text value => tagged "String" (.text value)
  | .bool value => tagged "Bool" (.bool value)
  | .null => .text "Null"
  | .access base steps => tagged "Variable" (outlineChain base (outlineSteps steps))
  | .operator op => tagged "Operator" (.text op.spelling)
  | .group tokens => tagged "Group" (.array (outlineTokens tokens))
  | .object literal => tagged "Object" literal.outline
  | .array literal => tagged "Array" literal.outline
  | .call base steps arguments =>
    outlineCall base (outlineSteps steps) (outlineArguments arguments)
  | .lambda params body =>
    tagged "Func" (.object
      [("params", .array (params.map Param.outline)), ("body", .array (outlineBody body))])
  | .await operand => tagged "Await" operand.outline

/-- The outline of an expression. -/
def outlineTokens : List Token → List Json
  | [] => []
  | token :: rest => token.outline :: outlineTokens rest

/-- The outline of a step. -/
def Step.outline : Step → Json
  | .property name => tagged "Prop" (.text name)
  | .index tokens => tagged "Index" (.array (outlineTokens tokens))

/-- The outlines of the steps of an access. -/
def outlineSteps : List Step → List Json
  | [] => []
  | step :: rest => step.outline :: outlineSteps rest

/-- The outlines of arguments. -/
def outlineArguments : List (List Token) → List Json
  | [] => []
  | tokens :: rest => .array (outlineTokens tokens) :: outlineArguments rest

/-- The outline of a statement with its line. -/
def Stmt.outline : Stmt → Json
  | .mk line kind => .object [("line", .int line), ("kind", kind.outline)]

/-- The outline of a statement. -/
def Kind.outline : Kind → Json
  | .declare name type value constant =>
    outlineAssignment
      (tagged "Declare" (.object [("name", .text name), ("decl_type", type.outline)]))
      .assign (outlineTokens value) constant
  | .modify base steps op value =>
    outlineAssignment (tagged "Modify" (outlineChain base (outlineSteps steps))) op
      (outlineTokens value) false
  | .expression tokens => tagged "Expr" (.array (outlineTokens tokens))
  | .function name params returns body =>
    tagged "Func" (.object
      [("name", .text name), ("params", .array (params.map Param.outline)),
       ("return_type", returns.outline), ("body", .array (outlineBody body))])
  | .branch condition body otherwise =>
    tagged "If" (outlineBranch (outlineTokens condition) (outlineBody body) otherwise.outline)
  | .loop condition body =>
    tagged "While" (.object
      [("condition", .array (outlineTokens condition)), ("body", .array (outlineBody body))])
  | .call base steps arguments =>
    outlineCall base (outlineSteps steps) (outlineArguments arguments)
  | .imports path => tagged "Import" (.object [("from", .text path)])
  | .returns none => tagged "Return" .null
  | .returns (some tokens) => tagged "Return" (.array (outlineTokens tokens))

/-- The outline of the other side of a branch. -/
def Otherwise.outline : Otherwise → Json
  | .nothing => .null
  | .block body => tagged "Block" (.array (outlineBody body))
  | .elseIf line condition body otherwise =>
    tagged "If" (.object
      [("line", .int line),
       ("if_stmt",
        outlineBranch (outlineTokens condition) (outlineBody body) otherwise.outline)])

/-- The outlines of several statements. -/
def outlineBody : List Stmt → List Json
  | [] => []
  | stmt :: rest => stmt.outline :: outlineBody rest

end

/-- The outline of a chain. -/
def Chain.outline (chain : Chain) : Json :=
  outlineChain chain.base (outlineSteps chain.steps)

/-- The outline of a script. -/
def outlineScript (statements : List Stmt) : Json :=
  .array (outlineBody statements)

end TypedScript
