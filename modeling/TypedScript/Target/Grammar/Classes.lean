/-
**Classes.** A class has a list of members: methods, fields with or without a value, accessors and
blocks that run once. Words such as `static` or `get` in front of a member are names themselves if
no name follows them.
-/

import TypedScript.Target.Grammar.Literals

namespace TypedScript.Target

open Parse

variable (inner : Inner) (setting : Setting)

/-- The words in front of a member, and its name if one of these words is the name. -/
structure Modifiers where
  static : Bool
  async : Bool
  generator : Bool
  accessor : Bool
  /-- Whether the member is a method behind `get` or `set`. -/
  getter : Bool
  key? : Option Key

variable (modifiers : Modifiers)

namespace Modifiers

/-- No words in front of a member. -/
def none : Modifiers :=
  ⟨false, false, false, false, false, .none⟩

/-- Whether `get` or `set` may come next. -/
def allowsGetter : Bool :=
  modifiers.key?.isNone && !modifiers.async && !modifiers.generator && !modifiers.accessor

end Modifiers

/-- Whether a token can stand behind a word in front of a member. -/
def followsModifier (token : Token) : Bool :=
  startsKey token.lexeme || token.lexeme = .mark "*"

/-- Reads the name of a member. Only fields and methods of classes have private names, and none is
named `#constructor`. -/
def memberKey : Parse Key := do
  match ← lexeme with
  | .privateName name =>
    if name = "constructor" then report (← line)
    next
    return none
  | _ => key inner setting

/-- The word `static`. -/
def readStatic : Parse Modifiers := do
  if ← atWord "static" then
    if followsModifier (← ahead 1) then
      pass
      return { modifiers with static := true }
    else return { modifiers with key? := some (← memberKey inner setting) }
  else return modifiers

/-- The word `async`. -/
def readAsync : Parse Modifiers := do
  if modifiers.key?.isNone && (← atWord "async") then
    let following ← ahead 1
    if !following.onNewLine && followsModifier following then
      pass
      return { modifiers with async := true }
    else return { modifiers with key? := some (← memberKey inner setting) }
  else return modifiers

/-- The word `accessor`. -/
def readAccessor : Parse Modifiers := do
  if modifiers.key?.isNone && (← atWord "accessor") then
    let following ← ahead 1
    if !following.onNewLine && startsKey following.lexeme then
      pass
      return { modifiers with accessor := true }
    else return modifiers
  else return modifiers

/-- The star of a generator. -/
def readStar : Parse Modifiers := do
  if modifiers.key?.isNone then return { modifiers with generator := ← eat "*" }
  else return modifiers

/-- The words `get` and `set`. -/
def readGetter : Parse Modifiers := do
  if modifiers.allowsGetter && ((← atWord "get") || (← atWord "set")) then
    if startsKey (← ahead 1).lexeme then
      pass
      return { modifiers with getter := true }
    else return modifiers
  else return modifiers

/-- Reads the words in front of a member. -/
def readModifiers : Parse Modifiers := do
  readGetter (← readStar (← readAccessor (← readAsync inner setting
    (← readStatic inner setting .none))))

/-- The value of a field. -/
def fieldValue : Parse Unit := do
  if ← eat "=" then
    let _ ← expression inner setting
  semicolon

/-- Reads a method behind its name. A constructor is a plain method, and no static member is named
`prototype`. -/
def methodRest (key : Key) (start : Nat) : Parse Unit := do
  if !modifiers.static && key = some "constructor" &&
      (modifiers.getter || modifiers.async || modifiers.generator) then
    report start
  if modifiers.static && key = some "prototype" then report start
  functionRest inner setting modifiers.async modifiers.generator

/-- Reads a field behind its name. No field is a constructor, and no static one is named
`prototype`. -/
def fieldRest (key : Key) (start : Nat) : Parse Unit := do
  if modifiers.getter then unexpected
  if key = some "constructor" then report start
  if modifiers.static && key = some "prototype" then report start
  fieldValue inner setting

/-- Reads a member behind its decorators. -/
def namedMember : Parse Unit := do
  let first ← line
  let modifiers ← readModifiers inner setting
  let start ← if modifiers.key?.isNone then line else pure first
  let key ← match modifiers.key? with
    | some key => pure key
    | none => memberKey inner setting
  if modifiers.accessor then fieldValue inner setting
  else if (← atMark "(") || modifiers.async || modifiers.generator then
    methodRest inner setting modifiers key start
  else fieldRest inner setting modifiers key start

/-- Whether a block that runs once comes next. -/
def startsStaticBlock : Parse Bool := do
  if ← atWord "static" then return (← ahead 1).lexeme = .mark "\x7b" else return false

/-- Reads a member, or a semicolon between members. -/
def member : Parse Unit := do
  if ← eat ";" then return
  decorators inner setting
  if ← startsStaticBlock then
    pass
    statements inner setting.ofStaticBlock .block
  else namedMember inner setting

/-- Reads the classes that a class is based on, of which there is at least one. -/
def bases (inner : Inner) (setting : Setting) : Nat → Parse Unit
  | 0 => unexpected
  | steps + 1 => do
    let _ ← inner.leftSide setting
    if ← eat "," then bases inner setting steps

/-- A class from the word `class` on. -/
def classRest : Parse Unit := do
  pass
  if let .word word ← lexeme then
    if isName word && word != "implements" then bindingName setting
  if ← eatWord "extends" then bases inner setting inner.steps
  expect "\x7b"
  repeated (atEnd "\x7d") (member inner setting) inner.steps
  expect "\x7d"

end TypedScript.Target
