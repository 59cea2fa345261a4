/-
**Declarations of variables.** A declaration has a list of names and patterns, with values behind
`=`. Where it is a statement, patterns and constants need a value.
-/

import TypedScript.Target.Grammar.Expressions

namespace TypedScript.Target

open Parse

variable (inner : Inner) (setting : Setting)

/-- What a declaration stands in. -/
inductive Owner where
  /-- A declaration that is a statement. -/
  | statement
  /-- The head of a `for` statement. -/
  | loop
  deriving DecidableEq, Repr

/-- Reads a name or pattern and its value. Tells whether it is a name and whether it has a value. -/
def declarator : Parse (Bool × Bool) := do
  let named ← inner.pattern setting
  if ← eat "=" then
    let _ ← inner.assignment setting
    return (named, true)
  else return (named, false)

/-- Reads names and patterns with commas between them. -/
def declarators (inner : Inner) (setting : Setting) (needsValue : Bool → Bool) : Nat → Parse Unit
  | 0 => unexpected
  | steps + 1 => do
    let start ← line
    let (named, valued) ← declarator inner setting
    if !valued && needsValue named then report start
    if ← eat "," then declarators inner setting needsValue steps

/-- A declaration from its word on. -/
def declaration (owner : Owner) : Parse Unit := do
  let constant ← atWord "const"
  pass
  declarators inner setting (fun named => owner = .statement && (constant || !named)) inner.steps
  if owner = .statement then semicolon

/-- Reads the names of values that are closed again. -/
def resourceNames (inner : Inner) (setting : Setting) (owner : Owner) : Nat → Parse Unit
  | 0 => unexpected
  | steps + 1 => do
    let start ← line
    let (named, valued) ← declarator inner setting
    if !named || (!valued && owner = .statement) then report start
    if ← eat "," then resourceNames inner setting owner steps

/-- A declaration of values that are closed again, from the word `using` on. -/
def resources (owner : Owner) : Parse Unit := do
  let _ ← eatWord "await"
  expectWord "using"
  if ← onNewLine then report (← line)
  if ← atWord "await" then report (← line)
  resourceNames inner setting owner inner.steps
  if owner = .statement then semicolon

/-- Whether a declaration of values that are closed again comes next. -/
def startsResources : Parse Bool := do
  match ← lexeme with
  | .word "using" =>
    match (← ahead 1).lexeme with
    | .word word => return isName word
    | _ => return false
  | .word "await" =>
    if (← ahead 1).lexeme = .word "using" then
      match (← ahead 2).lexeme with
      | .word word => return isName word
      | _ => return false
    else return false
  | _ => return false

end TypedScript.Target
