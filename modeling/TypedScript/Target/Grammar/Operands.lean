/-
**Operands.** An operand is a name, a literal, a function or class, or an expression in parentheses,
with accesses and calls behind it.
-/

import TypedScript.Target.Grammar.Classes

namespace TypedScript.Target

open Parse

variable (inner : Inner) (setting : Setting)

/-! ### Single operands -/

/-- Reads a regular expression. -/
def regex : Parse Unit := do
  let token ← token
  match token.regexEnd with
  | none => stop token.line
  | some (sound, after) =>
    if !sound then modify fun place => { place with lexical := token.line :: place.lexical }
    moveTo after

/-- Reads an expression in parentheses. There is at least one. -/
def group : Parse Form := do
  let start ← line
  expect "("
  let forms ← items inner.steps ")" false (inner.assignment setting.bracketed)
  expect ")"
  match forms with
  | [] => stop start
  | [form] => return .grouped start form
  | form :: _ => return .grouped start (.other form.line)

/-- Reads the loading of a module behind the word `import`. -/
def loading (start : Nat) : Parse Form := do
  let setting := setting.bracketed
  expect "("
  if ← eat ")" then stop start
  let _ ← inner.assignment setting
  if ← eat "," then
    if !(← atMark ")") then
      let _ ← inner.assignment setting
  let _ ← eat ","
  expect ")"
  return .loading start

/-- Reads what starts with the word `import` in an expression. -/
def importUse : Parse Form := do
  let start ← line
  pass
  match ← lexeme with
  | .mark "." =>
    next
    if ← eatWord "meta" then return .other start
    else
      next
      stop start
  | .mark "(" => loading inner setting start
  | _ =>
    next
    stop start

/-- Reads what starts with the word `new`. -/
def construction : Parse Form := do
  let start ← line
  pass
  if ← eat "." then
    if ← eatWord "target" then return .other start
    else
      next
      stop start
  else
    let calleeStart ← line
    let (callee, optional) ← inner.member setting
    if callee.isLoading then report calleeStart
    if ← atMark "(" then arguments inner setting
    if optional then report start
    return .other start

/-- Reads `super`, which stands in front of an access or a call. -/
def superUse : Parse Form := do
  let start ← line
  pass
  match ← lexeme with
  | .mark "." | .mark "[" | .mark "(" => return .other start
  | _ =>
    report start
    return .other start

/-- The words that are values. -/
def literalWords : List String :=
  ["this", "null", "true", "false"]

/-- An operand that starts with a word. -/
def wordOperand (word : String) : Parse Form := do
  let start ← line
  if literalWords.contains word then
    pass
    return .other start
  else if word = "class" then
    classRest inner setting
    return .other start
  else if word = "new" then construction inner setting
  else if word = "super" then superUse
  else if word = "import" then importUse inner setting
  else
    nameUse setting
    return .name start

/-- A function as an operand. -/
def functionOperand : Parse Form := do
  let start ← line
  let async ← eatWord "async"
  let _ ← functionWord inner setting .inside async
  return .other start

/-- Reads an operand that is no function. -/
def plainOperand : Parse Form := do
  let start ← line
  match ← lexeme with
  | .number | .text _ =>
    next
    return .other start
  | .template _ _ =>
    template inner setting false
    return .other start
  | .word word => wordOperand inner setting word
  | .mark mark =>
    if mark = "(" then group inner setting
    else if mark = "[" then listLiteral inner setting
    else if mark = "\x7b" then objectLiteral inner setting
    else if mark = "/" || mark = "/=" then
      regex
      return .other start
    else unexpected
  | _ => unexpected

/-- An operand without anything behind it. -/
def primary : Parse Form := do
  decorators inner setting
  if ← startsFunction then functionOperand inner setting else plainOperand inner setting

/-! ### Accesses and calls -/

/-- What was read of an operand: its form and whether an access in it has a `?`. -/
abbrev Operand := Form × Bool

/-- Reads the name of a member behind a point. -/
def pointAccess : Parse Unit := do
  next
  match ← lexeme with
  | .privateName _ => next
  | _ => memberName

/-- An index. -/
def bracketAccess : Parse Unit := do
  expect "["
  let _ ← expression inner setting.bracketed
  expect "]"

/-- Reads a template behind its tag. No access in the tag has a `?`. -/
def taggedTemplate (optional : Bool) : Parse Unit := do
  let start ← line
  template inner setting true
  if optional then report start

/-- Reads an access, if one comes next. -/
def access? (start : Nat) (operand : Operand) : Parse (Option Operand) := do
  match ← lexeme with
  | .mark "." =>
    pointAccess
    return some (.member start, operand.2)
  | .mark "?." =>
    match (← ahead 1).lexeme with
    | .mark "[" =>
      if setting.decorator then return none
      next
      bracketAccess inner setting
      return some (.member start, true)
    | .word _ | .privateName _ =>
      pointAccess
      return some (.member start, true)
    | _ => return none
  | .mark "[" =>
    if setting.decorator then return none
    bracketAccess inner setting
    return some (.member start, operand.2)
  | .template _ _ =>
    taggedTemplate inner setting operand.2
    return some (.other start, operand.2)
  | _ => return none

/-- All accesses behind an operand. -/
def accesses (inner : Inner) (setting : Setting) (start : Nat) : Nat → Operand → Parse Operand
  | 0, _ => unexpected
  | steps + 1, operand => do
    match ← access? inner setting start operand with
    | some operand => accesses inner setting start steps operand
    | none => return operand

/-- An operand with accesses. -/
def memberOperand : Parse Operand := do
  let start ← line
  let form ← primary inner setting
  accesses inner setting start inner.steps (form, false)

/-- Reads calls, and accesses between and behind them. -/
def calls (inner : Inner) (setting : Setting) (start : Nat) : Nat → Operand → Parse Operand
  | 0, _ => unexpected
  | steps + 1, operand => do
    let (form, optional) ← accesses inner setting start inner.steps operand
    let questioned ← eat "?."
    let optional := optional || questioned
    match ← lexeme with
    | .mark "(" =>
      arguments inner setting
      calls inner setting start steps (.other start, optional)
    | .template _ _ =>
      taggedTemplate inner setting optional
      calls inner setting start steps (.other start, optional)
    | _ => return (form, optional)

/-- An operand with `?.` in it is no target. -/
def Operand.toForm : Operand → Form
  | (.member start, true) => .other start
  | (form, _) => form

/-- An operand with accesses and calls. -/
def leftSide : Parse Form := do
  let start ← line
  let operand ← memberOperand inner setting
  return (← calls inner setting start inner.steps operand).toForm

end TypedScript.Target
