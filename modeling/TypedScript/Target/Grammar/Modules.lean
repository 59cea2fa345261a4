/-
**Imports and exports.** What a module takes from others and what it gives to them.
-/

import TypedScript.Target.Grammar.Declarations

namespace TypedScript.Target

open Parse

variable (inner : Inner) (setting : Setting)

/-! ### Parts of both -/

/-- The string that names a module. -/
def moduleText : Parse Unit := do
  match ← lexeme with
  | .text _ => next
  | _ => unexpected

/-- Reads a name that a module has for others, which may be a text. -/
def moduleName : Parse Unit := do
  match ← lexeme with
  | .text _ => next
  | _ => memberName

/-- One attribute of an import. -/
def importAttribute : Parse Unit := do
  moduleName
  expect ":"
  moduleText

/-- The attributes of an import, if there are any. -/
def importAttributes : Parse Unit := do
  let token ← token
  if token.lexeme = .word "with" || (token.lexeme = .word "assert" && !token.onNewLine) then
    next
    expect "\x7b"
    let _ ← items inner.steps "\x7d" true importAttribute
    expect "\x7d"

/-- Reads where names come from, and the end of the statement. -/
def sourceModule : Parse Unit := do
  expectWord "from"
  moduleText
  importAttributes inner
  semicolon

/-! ### Imports -/

/-- Reads a name that is taken from a module. -/
def importedName : Parse Unit := do
  if (← ahead 1).lexeme = .word "as" then
    moduleName
    next
  bindingName setting

/-- Reads names that are taken from a module: all of them as members of one, or some of them. -/
def importedNames : Parse Unit := do
  if ← eat "*" then
    expectWord "as"
    bindingName setting
  else if ← eat "\x7b" then
    let _ ← items inner.steps "\x7d" true (importedName setting)
    expect "\x7d"
  else unexpected

/-- Reads what is taken from a module. -/
def imports : Parse Unit := do
  match ← lexeme with
  | .word word =>
    if isName word then
      bindingName setting
      if ← eat "," then importedNames inner setting
  | .mark "*" => importedNames inner setting
  | .mark "\x7b" => importedNames inner setting
  | _ => return

/-- An import from its word on. -/
def importDeclaration : Parse Unit := do
  pass
  match ← lexeme with
  | .text _ =>
    next
    importAttributes inner
    semicolon
  | _ =>
    imports inner setting
    sourceModule inner

/-! ### Exports -/

/-- Reads a name that is given to others. Gives its line if it can be no name of the module
itself. -/
def exportedName : Parse (Option Nat) := do
  let token ← token
  moduleName
  if ← eatWord "as" then moduleName
  match token.lexeme with
  | .word word => return if isName word then none else some token.line
  | _ => return some token.line

/-- Reads names that are given to others. They may come from another module. -/
def exportedNames : Parse Unit := do
  expect "\x7b"
  let names ← items inner.steps "\x7d" true exportedName
  expect "\x7d"
  if ← atWord "from" then sourceModule inner
  else
    for line in names.filterMap id do
      report line
    semicolon

/-- Reads the export of everything that another module has. -/
def exportAll : Parse Unit := do
  expect "*"
  if ← eatWord "as" then moduleName
  sourceModule inner

/-- Reads what a module stands for. -/
def exportDefault : Parse Unit := do
  expectWord "default"
  decorators inner setting
  if ← atWord "class" then classRest inner setting
  else if ← startsFunction then
    let async ← eatWord "async"
    let _ ← functionWord inner setting .exported async
  else
    let _ ← inner.assignment setting
    semicolon

/-- Reads a declaration that is given to others. -/
def exportedDeclaration : Parse Unit := do
  decorators inner setting
  if ← atWord "class" then classRest inner setting
  else if ← startsFunction then
    let async ← eatWord "async"
    let _ ← functionWord inner setting .declared async
  else if (← atWord "var") || (← atWord "let") || (← atWord "const") then
    declaration inner setting .statement
  else unexpected

/-- An export from its word on. -/
def exportDeclaration : Parse Unit := do
  pass
  match ← lexeme with
  | .word "default" => exportDefault inner setting
  | .mark "*" => exportAll inner
  | .mark "\x7b" => exportedNames inner
  | _ => exportedDeclaration inner setting

end TypedScript.Target
