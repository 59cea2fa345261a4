/-
**Generated values.** A value is generated code together with the type of what it evaluates to.
Operators apply strictly from left to right, and every binary operation is written in parentheses.
-/

import TypedScript.Generation.Context
import TypedScript.Types.Checks
import TypedScript.Types.Operations

namespace TypedScript

/-- Generated code and the type of what it evaluates to. -/
structure Value where
  type : Ty
  code : Target.Expr

/-- What comes before the next token of an expression. -/
inductive Operand where
  /-- An operand is wanted: the operation it completes, if any, and the operators in front of it,
  the last one first. -/
  | wanted (left : Option (Value × Operator)) (prefixes : List Operator)
  /-- Everything so far is a value. -/
  | complete (value : Value)

/-- An operator in front of its operand. -/
def unaryCode (op : Operator) (operand : Target.Expr) : Target.Expr :=
  match op with
  | .not => .not operand
  | _ => .minus operand

/-- Applies the operators in front of an operand, starting with the nearest. -/
def applyPrefixes (line : Nat) : List Operator → Value → Gen Value
  | [], value => pure value
  | op :: rest, value => do
    let type ← Gen.ofExcept (value.type.applyUnary op) line
    applyPrefixes line rest ⟨type, unaryCode op value.code⟩

/-- Completes the operation that an operand is the right side of. -/
def applyLeft (line : Nat) (left : Option (Value × Operator)) (value : Value) : Gen Value :=
  match left with
  | none => pure value
  | some (left, op) => do
    let type ← Gen.ofExcept (Ty.applyBinary op left.type value.type) line
    return ⟨type, .binary op left.code value.code⟩

/-- Whether an operator may stand between two operands. -/
def Operator.joinsOperands (op : Operator) : Bool :=
  op != .not && !op.isAssignment

/-- What follows a token that is an operator. -/
def Operand.afterOperator (line : Nat) (op : Operator) : Operand → Gen Operand
  | .wanted left prefixes =>
    if op.isUnary then pure (.wanted left (op :: prefixes))
    else Gen.fail (.unexpectedToken op.spelling) line
  | .complete value =>
    if op.joinsOperands then pure (.wanted (some (value, op)) [])
    else Gen.fail (.unexpectedToken op.spelling) line

/-- What follows a token that is a value. -/
def Operand.afterValue (line : Nat) (value : Gen Value) : Operand → Gen Operand
  | .wanted left prefixes => do
    let operand ← applyPrefixes line prefixes (← value)
    return .complete (← applyLeft line left operand)
  | .complete _ => Gen.fail (.unexpectedToken "value") line

/-- The value of an expression that ends here. -/
def Operand.atEnd (line : Nat) : Operand → Gen Value
  | .wanted .. => Gen.fail .unexpectedEnd line
  | .complete value => pure value

/-! ### Accesses -/

/-- The type of a member of a module: a property comes before a function of the same name. -/
def Module.memberType? (module : Module) (member : String) : Option Ty :=
  match module.property? member with
  | some property => some property.type
  | none => (module.function? member).map fun _ => .func

/-- The value that an access starts from, and the number of steps it takes up: the first step from a
module names the member. -/
def resolveBase (base : String) (steps : List Step) (line : Nat) : Gen (Value × Nat) := do
  let context ← Gen.context
  match context.scopes.lookup? base with
  | some binding => return (⟨binding.type, .name base⟩, 0)
  | none =>
    match context.module? base with
    | none => Gen.fail (.variableNotDeclared base) line
    | some module =>
      match steps with
      | .property member :: _ =>
        match module.memberType? member with
        | some type => return (⟨type, .member (.name base) member⟩, 1)
        | none => Gen.fail (.unknownModuleMember base member) line
      | _ => return (⟨.any, .name base⟩, 0)

/-- The value of an access whose steps are taken by `walk`, given the number of steps that are done
and the value they lead to. -/
def resolveWith (base : String) (steps : List Step) (line : Nat)
    (walk : Nat → Value → Gen Value) : Gen Value := do
  let (start, taken) ← resolveBase base steps line
  walk taken start

/-- A member of a value. -/
def accessMember (receiver : Value) (name : String) (line : Nat) : Gen Value := do
  let member ← Gen.ofExcept (receiver.type.member name false) line
  return ⟨member.type, .member receiver.code name⟩

/-- An element of a value. -/
def accessIndex (receiver : Value) (index : Gen Value) (line : Nat) : Gen Value := do
  let (element, key) ← Gen.ofExcept receiver.type.indexed line
  let index ← index
  Gen.expect (Ty.checkAssignment key index.type) line
  return ⟨element, .index receiver.code index.code⟩

/-! ### Integers -/

/-- Truncates a value that is stored as an `int` or `uint`. -/
def Ty.truncate (type : Ty) (code : Target.Expr) : Target.Expr :=
  if type.isInt then .toInt code
  else if type.isUint then .toUint code
  else code

/-- The type that is written for the elements reached by steps, if every step is an index into an
array or object with one parameter. -/
def Ty.elementAlong? : List Step → Ty → Option Ty
  | [], type => some type
  | .index _ :: rest, .named name [element] =>
    if name = "array" || name = "object" then Ty.elementAlong? rest element else none
  | _ :: _, _ => none

end TypedScript
