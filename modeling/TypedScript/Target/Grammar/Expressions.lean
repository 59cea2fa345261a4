/-
**Expressions.** An expression without commas is an arrow function, an assignment, a condition with
two values, a value that a generator gives, or operands with operators.
-/

import TypedScript.Target.Grammar.Arrows

namespace TypedScript.Target

open Parse

variable (inner : Inner) (setting : Setting)

/-! ### Generators -/

/-- Whether `yield` comes next as an operator. -/
def startsYield : Parse Bool := do
  if ← atWord "yield" then
    let following ← ahead 1
    if following.lexeme = .mark "=>" then return false
    else return setting.generator || startsArgument following
  else return false

/-- Whether no argument of `yield` starts with a token. -/
def endsYield : Lexeme → Bool
  | .ending => true
  | .word word => word == "in"
  | .mark mark => [";", "\x7d", ")", "]", ":", ","].contains mark
  | _ => false

/-- Reads `yield` and its argument, which stands on the same line. -/
def yielding : Parse Form := do
  let start ← line
  pass
  if !setting.generator then report start
  if !(← onNewLine) then
    let delegates ← eat "*"
    if delegates || !endsYield (← lexeme) then
      let _ ← inner.assignment { setting with generator := true }
  return .other start

/-! ### Assignments and conditions -/

/-- The operators that assign. -/
def assignmentMarks : List String :=
  ["=", "*=", "/=", "%=", "+=", "-=", "<<=", ">>=", ">>>=", "&=", "^=", "|=", "**=", "&&=", "||=",
   "??="]

/-- Whether a token is the sign of an assignment. -/
def isAssignment : Lexeme → Bool
  | .mark mark => assignmentMarks.contains mark
  | _ => false

/-- Reads the values of a condition, if an operand is one. -/
def conditionalRest (form : Form) : Parse Form := do
  if ← eat "?" then
    let _ ← inner.assignment { setting with membership := true }
    expect ":"
    let _ ← inner.assignment setting
    return .other form.line
  else return form

/-- Reads what stands behind operands and their operators. -/
def assignmentRest (start : Nat) (form : Form) : Parse Form := do
  let lexeme ← lexeme
  if form.isName && lexeme = .mark "=>" then
    arrowRest inner setting false
    return .other start
  else if isAssignment lexeme then
    form.asTarget
    next
    let _ ← inner.assignment setting
    return .assignment start
  else conditionalRest inner setting form

/-- An expression without commas. -/
def assignment : Parse Form := do
  let start ← line
  if ← startsYield setting then yielding inner setting
  else
    match ← groupedArrow? inner setting with
    | some form => return form
    | none =>
      match ← asyncArrow? inner setting with
      | some form => return form
      | none => assignmentRest inner setting start (← binary inner setting)

end TypedScript.Target
