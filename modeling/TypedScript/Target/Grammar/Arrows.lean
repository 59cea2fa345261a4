/-
**Arrow functions.** What stands in parentheses may be an expression or the parameters of an arrow
function. The first tokens decide it, or it is read as parameters first and as an expression if no
arrow follows.
-/

import TypedScript.Target.Grammar.Operators

namespace TypedScript.Target

open Parse

variable (inner : Inner) (setting : Setting)

/-! ### The first tokens -/

/-- Whether an arrow function comes next. -/
inductive Likelihood where
  | impossible
  | possible
  | certain
  deriving DecidableEq, Repr

/-- Literals, as far as they are one token. -/
def isLiteral : Lexeme → Bool
  | .number | .text _ => true
  | .word word => ["null", "true", "false"].contains word
  | _ => false

/-- Whether a parameter without parentheses comes next. -/
def startsParameter : Lexeme → Bool
  | .word word => isName word || word == "this"
  | _ => false

/-- Tells from the three tokens behind a parenthesis whether it starts parameters. -/
def parameterLikelihood : Lexeme → Lexeme → Lexeme → Likelihood
  | .mark ")", second, _ =>
    if [.mark "=>", .mark ":", .mark "\x7b"].contains second then .certain else .impossible
  | .mark "[", _, _ => .possible
  | .mark "\x7b", _, _ => .possible
  | .mark "...", second, _ =>
    if isLiteral second then .impossible
    else
      match second with
      | .word word => if isName word then .certain else .possible
      | _ => .possible
  | first, second, third =>
    if !startsParameter first then .impossible
    else if second = .mark ":" then .certain
    else if second = .mark "?" then
      if [.mark ":", .mark ",", .mark "=", .mark ")"].contains third then .certain else .impossible
    else if [.mark ",", .mark "=", .mark ")"].contains second then .possible
    else .impossible

/-- Tells whether the parenthesis `skipped` tokens behind the next one starts parameters. Looks at
no more tokens than needed. -/
def likelihoodBehind (skipped : Nat) : Parse Likelihood := do
  let first := (← ahead (skipped + 1)).lexeme
  if first = .mark "[" || first = .mark "\x7b" then return .possible
  let second := (← ahead (skipped + 2)).lexeme
  let third ←
    if startsParameter first && second = .mark "?" then
      pure (← ahead (skipped + 3)).lexeme
    else pure .ending
  return parameterLikelihood first second third

/-- Tells from the first tokens whether an arrow function with parentheses comes next. -/
def arrowLikelihood : Parse Likelihood := do
  match ← lexeme with
  | .mark "(" => glance (likelihoodBehind 0)
  | .word "async" =>
    let following ← ahead 1
    if !following.onNewLine && following.lexeme = .mark "(" then glance (likelihoodBehind 1)
    else return .impossible
  | _ => return .impossible

/-! ### Parameters and body -/

/-- Passes an arrow, which stands on the line of what is in front of it. -/
def arrow : Parse Unit := do
  if ← onNewLine then report (← line)
  expect "=>"

/-- A block or an expression. -/
def arrowBody (async : Bool) : Parse Unit := do
  let setting := { setting with async, generator := false }
  if ← atMark "\x7b" then functionBody inner setting
  else
    let _ ← inner.assignment setting

/-- Reads the parameters of an arrow function and the arrow. Tells whether it is asynchronous. -/
def arrowHead : Parse Bool := do
  let async ← eatWord "async"
  parameters inner { setting with async := setting.async || async }
  arrow
  return async

/-- An arrow function with parentheses, if one comes next. -/
def groupedArrow? : Parse (Option Form) := do
  let start ← line
  let head? ←
    match ← arrowLikelihood with
    | .impossible => pure none
    | .possible => attempt (arrowHead inner setting)
    | .certain => some <$> arrowHead inner setting
  match head? with
  | none => return none
  | some async =>
    arrowBody inner setting async
    return some (.other start)

/-- Whether `async`, a name and an arrow come next on one line. -/
def startsAsyncArrow : Parse Bool := do
  if ← atWord "async" then
    let name ← ahead 1
    match name.lexeme with
    | .word word =>
      if isName word && !name.onNewLine then
        let arrow ← ahead 2
        return arrow.lexeme = .mark "=>" && !arrow.onNewLine
      else return false
    | _ => return false
  else return false

/-- An arrow and what stands behind it. -/
def arrowRest (async : Bool) : Parse Unit := do
  arrow
  arrowBody inner setting async

/-- An asynchronous arrow function without parentheses, if one comes next. -/
def asyncArrow? : Parse (Option Form) := do
  let start ← line
  if ← glance startsAsyncArrow then
    pass
    nameUse setting
    arrowRest inner setting true
    return some (.other start)
  else return none

end TypedScript.Target
