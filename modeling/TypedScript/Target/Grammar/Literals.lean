/-
**Literals with parts.** Lists, objects and templates.
-/

import TypedScript.Target.Grammar.Functions

namespace TypedScript.Target

open Parse

variable (inner : Inner) (setting : Setting)

/-- Passes a comma at the end of a literal and gives its line. -/
def lastComma : Parse (Option Nat) := do
  let start ← line
  if ← eat "," then return some start else return none

/-! ### Lists -/

/-- Reads an item of a list, which may be left out. -/
def listItem : Parse Form := do
  match ← lexeme with
  | .mark "," => return .hole
  | .mark "..." => spread inner setting
  | _ => inner.assignment setting

/-- A list. -/
def listLiteral : Parse Form := do
  let start ← line
  expect "["
  let items ← items inner.steps "]" false (listItem inner setting.bracketed)
  let comma? ← lastComma
  expect "]"
  return .list start items comma?

/-! ### Objects -/

/-- A method of an object. -/
def methodField : Parse Form := do
  let start ← line
  let async ← eatWord "async"
  let generator ← eat "*"
  let _ ← key inner setting
  functionRest inner setting async generator
  return .other start

/-- Reads a field that is a method with `get` or `set` in front of its name. -/
def accessorField : Parse Form := do
  let start ← line
  pass
  let _ ← key inner setting
  functionRest inner setting false false
  return .other start

/-- Reads a field that is only a name. It may have a value, as the object may be a pattern. -/
def shorthandField : Parse Form := do
  nameUse setting
  if ← eat "=" then
    let _ ← inner.assignment setting
  return .shorthand

/-- Reads a field with a value of its own, or a method. -/
def namedField : Parse Form := do
  let start ← line
  let _ ← key inner setting
  if ← eat ":" then inner.assignment setting
  else if ← atMark "(" then
    functionRest inner setting false false
    return .other start
  else unexpected

/-- Reads a field of an object that is not spread. -/
def ownField : Parse Form := do
  let following ← ahead 1
  let beforeKey := startsKey following.lexeme
  match ← lexeme with
  | .mark "*" => if beforeKey then methodField inner setting else unexpected
  | .word word =>
    if (word = "get" || word = "set") && beforeKey then accessorField inner setting
    else if word = "async" && !following.onNewLine && (beforeKey || following.lexeme = .mark "*") then
      methodField inner setting
    else if isName word && following.lexeme != .mark "(" && following.lexeme != .mark ":" then
      shorthandField inner setting
    else namedField inner setting
  | _ => namedField inner setting

/-- Reads a field of an object. -/
def field : Parse Form := do
  if ← atMark "..." then spread inner setting else ownField inner setting

/-- An object. -/
def objectLiteral : Parse Form := do
  let start ← line
  expect "\x7b"
  let fields ← items inner.steps "\x7d" false (field inner setting.bracketed)
  let comma? ← lastComma
  expect "\x7d"
  return .object start fields comma?

/-! ### Templates -/

/-- Notes unsound escapes in a part of a template without a tag. -/
def checkPart (tagged sound : Bool) (start : Nat) : Parse Unit := do
  if !tagged && !sound then report start

/-- Reads a template from an expression in it to its end. Expressions in one pair of braces need
nothing between them. -/
def templateRest (inner : Inner) (setting : Setting) (tagged : Bool) : Nat → Parse Unit
  | 0 => unexpected
  | steps + 1 => do
    let _ ← expression inner setting
    if ← atMark "\x7d" then
      let token ← token
      match token.templatePart with
      | none => stop token.line
      | some part =>
        moveTo part.after
        checkPart tagged part.sound token.line
        if !part.closed then templateRest inner setting tagged steps
    else templateRest inner setting tagged steps

/-- A template, which may have a tag in front of it. -/
def template (tagged : Bool) : Parse Unit := do
  let start ← line
  match ← lexeme with
  | .template closed sound =>
    next
    checkPart tagged sound start
    if !closed then templateRest inner setting.bracketed tagged inner.steps
  | _ => unexpected

end TypedScript.Target
