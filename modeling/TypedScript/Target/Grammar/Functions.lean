/-
**Functions.** A function has a name, parameters and a body. What it is called and how it is
declared decide the `Setting` of its parts.
-/

import TypedScript.Target.Grammar.Bindings

namespace TypedScript.Target

open Parse

variable (inner : Inner) (setting : Setting)

/-- A parameter with its decorators. -/
def parameter : Parse Unit := do
  decorators inner setting
  element inner setting

/-- The last parameter, which takes all further arguments. -/
def restParameter : Parse Nat := do
  let (start, _) ← restElement inner setting
  lastElement start [")"]
  return start

/-- Reads parameters in parentheses. -/
def parameters : Parse Unit := do
  expect "("
  elements ")" (parameter inner setting) (restParameter inner setting) inner.steps true none
  expect ")"

/-- Reads statements in braces. -/
def statements (placement : Placement) : Parse Unit := do
  expect "\x7b"
  repeated (atEnd "\x7d") (inner.statement setting placement) inner.steps
  expect "\x7d"

/-- The statements of a function. -/
def functionBody : Parse Unit :=
  statements inner { setting.bracketed with inFunction := true } .body

/-- The parameters and the body of a function that is no arrow function. -/
def functionRest (async generator : Bool) : Parse Unit := do
  let setting := setting.ofFunction async generator
  parameters inner setting
  if ← atMark "\x7b" then functionBody inner setting else unexpected

/-- How a function is named. -/
inductive Naming where
  /-- A declaration, which needs a name. -/
  | declared
  /-- The function that a module stands for, with or without a name. -/
  | exported
  /-- An expression, whose name is known only inside. -/
  | inside
  deriving DecidableEq, Repr

/-- The name of a function. -/
def functionName (naming : Naming) (async generator : Bool) : Parse Unit := do
  let setting := if naming = .inside then setting.ofFunction async generator else setting
  match ← lexeme with
  | .word word =>
    if isName word then passName setting word
    else if naming = .declared then report (← line)
  | .mark "(" => if naming = .declared then report (← line)
  | _ => return

/-- Reads a function from the word `function` on. Tells whether it is a generator. -/
def functionWord (naming : Naming) (async : Bool) : Parse Bool := do
  expectWord "function"
  let generator ← eat "*"
  functionName setting naming async generator
  functionRest inner setting async generator
  return generator

/-- Whether a function starts here with the word `function`, or with `async` in front of it. -/
def startsFunction : Parse Bool := do
  match ← lexeme with
  | .word "function" => return true
  | .word "async" =>
    let following ← ahead 1
    return following.lexeme = .word "function" && !following.onNewLine
  | _ => return false

end TypedScript.Target
