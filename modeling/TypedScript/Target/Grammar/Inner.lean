/-
**Readers of nested parts.** Expressions, patterns and statements have each other as parts. The
readers of one kind take the readers of all kinds of parts as an `Inner`, so each of them stands on
its own, and the knot is tied once.

What a word or sign means also depends on what is around it, which is the `Setting` of a place.
-/

import TypedScript.Target.Forms

namespace TypedScript.Target

open Parse

/-- What the surroundings of a place decide. -/
structure Setting where
  /-- Whether `in` is an operator. -/
  membership : Bool
  async : Bool
  /-- Whether `yield` is an operator. -/
  generator : Bool
  /-- Whether `return` may stand here. -/
  inFunction : Bool
  /-- Whether this is a decorator, which has no brackets behind it. -/
  decorator : Bool

namespace Setting

/-- Outside every function. -/
def outermost : Setting :=
  ⟨true, false, false, false, false⟩

/-- Inside of brackets. -/
def bracketed (setting : Setting) : Setting :=
  { setting with membership := true, decorator := false }

/-- Inside the parameters and the body of a function. -/
def ofFunction (setting : Setting) (async generator : Bool) : Setting :=
  { setting.bracketed with async, generator }

/-- In the expression of a decorator. -/
def ofDecorator (setting : Setting) : Setting :=
  { setting with decorator := true }

/-- In a static block of a class. -/
def ofStaticBlock (setting : Setting) : Setting :=
  { setting.bracketed with async := true, generator := false, inFunction := false }

/-- Whether a word is an operator here and no name. -/
def isOperator (setting : Setting) (word : String) : Bool :=
  (setting.async && word == "await") || (setting.generator && word == "yield")

end Setting

/-- Where a statement stands. -/
inductive Placement where
  /-- Directly in a program or in the body of a function. -/
  | body
  | block
  /-- Where only one statement may stand. -/
  | single
  deriving DecidableEq, Repr

/-- Readers of parts. -/
structure Inner where
  /-- A bound on the length of lists. -/
  steps : Nat
  /-- An expression without commas. -/
  assignment : Setting → Parse Form
  /-- An operand with the operators in front of it and behind it. -/
  unary : Setting → Parse Form
  leftSide : Setting → Parse Form
  /-- An operand with its accesses, and whether one of them has a `?`. -/
  member : Setting → Parse (Form × Bool)
  /-- A name or pattern, and whether it is a name. -/
  pattern : Setting → Parse Bool
  statement : Setting → Placement → Parse Unit

/-! ### Expressions with commas -/

variable (inner : Inner) (setting : Setting)

/-- Reads the expressions behind further commas. -/
def moreExpressions (inner : Inner) (setting : Setting) : Nat → Parse Unit
  | 0 => unexpected
  | steps + 1 => do
    if ← eat "," then
      let _ ← inner.assignment setting
      moreExpressions inner setting steps

/-- Expressions with commas between them. -/
def expression : Parse Form := do
  let setting := { setting with decorator := false }
  let form ← inner.assignment setting
  if ← atMark "," then
    moreExpressions inner setting inner.steps
    return .other form.line
  else return form

/-- Reads an expression in parentheses that belong to a statement. -/
def condition : Parse Unit := do
  expect "("
  let _ ← expression inner setting.bracketed
  expect ")"

/-- Reads an expression behind `...`. -/
def spread : Parse Form := do
  let start ← line
  next
  return .spread start (← inner.assignment setting)

/-- Reads arguments in parentheses. -/
def arguments : Parse Unit := do
  let setting := setting.bracketed
  expect "("
  let _ ← items inner.steps ")" true do
    if ← atMark "..." then spread inner setting else inner.assignment setting
  expect ")"

/-! ### Names -/

/-- Passes a word that is a name. A word that is an operator here is a fault. -/
def passName (word : String) : Parse Unit := do
  let start ← line
  next
  if setting.isOperator word then report start

/-- Reads a name that is declared. -/
def bindingName : Parse Unit := do
  match ← lexeme with
  | .word word => if isName word then passName setting word else stop (← line)
  | _ => unexpected

/-- Reads a name that stands for its value. -/
def nameUse : Parse Unit := do
  match ← lexeme with
  | .word word => if isName word then passName setting word else unexpected
  | _ => unexpected

/-- The name of a label. -/
def labelName : Parse Unit := do
  match ← lexeme with
  | .word word => if isName word && !setting.isOperator word then next else unexpected
  | _ => unexpected

/-- Reads a word, which may be reserved. -/
def memberName : Parse Unit := do
  match ← lexeme with
  | .word _ => next
  | _ => unexpected

/-! ### Names of members -/

/-- The name of a member, if it is told without an expression. -/
abbrev Key := Option String

/-- Whether the name of a member can start with a token. -/
def startsKey : Lexeme → Bool
  | .word _ | .privateName _ | .number | .text _ => true
  | .mark mark => mark == "["
  | _ => false

/-- Reads the name of a member of an object. -/
def key : Parse Key := do
  match ← lexeme with
  | .word word =>
    next
    return some word
  | .text content =>
    next
    return some content
  | .number =>
    next
    return none
  | .mark "[" =>
    next
    let _ ← inner.assignment setting.bracketed
    expect "]"
    return none
  | _ => unexpected

/-! ### Decorators -/

/-- All decorators that follow. -/
def moreDecorators (inner : Inner) (setting : Setting) : Nat → Parse Unit
  | 0 => unexpected
  | steps + 1 => do
    if ← eat "@" then
      let _ ← inner.leftSide setting.ofDecorator
      moreDecorators inner setting steps

/-- Reads the decorators that stand here, if there are any. -/
def decorators : Parse Unit :=
  moreDecorators inner setting inner.steps

end TypedScript.Target
