/-
**Types of operations.** Which categories an operator takes, and which one it gives. An operand of
type `any` is always taken; the result is then known only if the operator gives the same category
for every operand.
-/

import TypedScript.Diagnostic
import TypedScript.Operator
import TypedScript.Types.Normal

namespace TypedScript

namespace Operator

/-- The categories a binary operator takes, each with the category of the result. -/
def binaryTable : Operator → List (String × String)
  | .add | .addAssign => [("number", "number"), ("string", "string")]
  | .sub | .subAssign | .mul | .mulAssign | .div | .divAssign | .mod => [("number", "number")]
  | .less | .greater | .lessEquals | .greaterEquals => [("number", "boolean")]
  | .equals | .notEquals | .and | .or =>
    [("number", "boolean"), ("string", "boolean"), ("boolean", "boolean")]
  | .assign | .not => []

/-- The categories an operator in front of its operand takes, each with that of the result. -/
def unaryTable : Operator → List (String × String)
  | .not => [("boolean", "boolean"), ("string", "boolean"), ("number", "boolean")]
  | .sub => [("number", "number")]
  | _ => []

/-- The result that a table gives for a category. -/
def resultFor? (table : List (String × String)) (category : String) : Option String :=
  (table.find? fun entry => entry.1 == category).map Prod.snd

/-- The category a table gives for every operand, if that is always the same. -/
def uniformResult? : List (String × String) → Option String
  | [] => none
  | (_, result) :: rest => if rest.all fun entry => entry.2 == result then some result else none

end Operator

namespace Ty

/-- Whether an operator takes an operand of a category. -/
def takesOperand (op : Operator) (category : String) : Bool :=
  category == "any" || (Operator.resultFor? op.binaryTable category).isSome

/-- The type of a binary operation. Adding a string to anything gives a string. -/
def applyBinary (op : Operator) (left right : Ty) : Except Cause Ty :=
  let leftCategory := left.category
  let rightCategory := right.category
  let mismatch := Cause.operatorMismatch op.spelling left.text right.text
  if !(takesOperand op leftCategory && takesOperand op rightCategory) then .error mismatch
  else if leftCategory = "any" || rightCategory = "any" then
    .ok (simple ((Operator.uniformResult? op.binaryTable).getD "any"))
  else if (op = .add || op = .addAssign) &&
      (leftCategory = "string" || rightCategory = "string") then
    .ok string
  else
    match Operator.resultFor? op.binaryTable leftCategory with
    | some result => .ok (simple result)
    | none => .error mismatch

/-- The type of an operand behind an operator. -/
def applyUnary (op : Operator) (operand : Ty) : Except Cause Ty :=
  let category := operand.category
  if category = "any" then .ok (simple ((Operator.uniformResult? op.unaryTable).getD "any"))
  else
    match Operator.resultFor? op.unaryTable category with
    | some result => .ok (simple result)
    | none => .error (.unaryOperatorMismatch op.spelling operand.text)

end Ty

end TypedScript
