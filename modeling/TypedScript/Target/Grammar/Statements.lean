/-
**Statements.**
-/

import TypedScript.Target.Grammar.Modules

namespace TypedScript.Target

open Parse

variable (inner : Inner) (setting : Setting)

/-! ### Expressions and labels -/

/-- An expression, or a statement with a label. -/
def expressionStatement : Parse Unit := do
  let form ← expression inner setting
  if form.isName && (← atMark ":") then
    next
    inner.statement setting .single
  else semicolon

/-- Whether a token behind `let` makes it an operand. -/
def continuesLet (lexeme : Lexeme) : Bool :=
  isAssignment lexeme ||
    match lexeme with
    | .word word => word == "in" || word == "instanceof"
    | .mark mark => binaryMarks.contains mark
    | _ => false

variable (placement : Placement)

/-- Reads a statement that starts with `let`. What follows decides whether it is a name. -/
def letStatement : Parse Unit := do
  let start ← line
  let following := (← ahead 1).lexeme
  if continuesLet following then
    let _ ← inner.assignment setting
    semicolon
  else if following = .mark "." || following = .mark "(" then
    let _ ← expression inner setting
  else if (placement = .single && following != .mark "[") || following = .mark ";" then
    nameUse setting
    semicolon
  else
    declaration inner setting .statement
    if placement = .single then report start

/-! ### Branches -/

/-- An `if` statement. -/
def ifStatement : Parse Unit := do
  pass
  condition inner setting
  inner.statement setting .single
  if ← eatWord "else" then inner.statement setting .single

/-- Whether a case of a `switch` statement ends in front of the next token. -/
def caseEnds : Parse Bool := do
  match ← lexeme with
  | .word word => return word = "case" || word = "default"
  | .mark "\x7d" => return true
  | .ending => return true
  | _ => return false

/-- One case of a `switch` statement. -/
def switchCase : Parse Unit := do
  if ← eatWord "case" then
    let _ ← expression inner setting
  else if ← atWord "default" then pass
  else unexpected
  expect ":"
  repeated caseEnds (inner.statement setting .block) inner.steps

/-- A `switch` statement. -/
def switchStatement : Parse Unit := do
  pass
  condition inner setting
  expect "\x7b"
  repeated (atEnd "\x7d") (switchCase inner setting) inner.steps
  expect "\x7d"

/-! ### Loops -/

/-- A `do` statement. -/
def doStatement : Parse Unit := do
  pass
  inner.statement setting .single
  expectWord "while"
  condition inner setting
  let _ ← eat ";"

/-- Reads a statement that has a condition in front of its body. -/
def conditionStatement : Parse Unit := do
  pass
  condition inner setting
  inner.statement setting .single

/-- Where a `for` statement starts, and whether `await` follows the word. -/
structure LoopHead where
  line : Nat
  awaits : Bool

/-- Reads a `for` statement that counts, behind what it does first. -/
def countingLoop (head : LoopHead) : Parse Unit := do
  expect ";"
  if !(← atMark ";") && !(← atMark ")") then
    let _ ← expression inner setting.bracketed
  expect ";"
  if !(← atMark ")") then
    let _ ← expression inner setting.bracketed
  expect ")"
  if head.awaits then report head.line
  inner.statement setting .single

/-- Whether `in` or `of` comes next. -/
def atSource : Parse Bool := do
  return (← atWord "in") || (← atWord "of")

/-- Reads a `for` statement that goes through something, from `in` or `of` on. -/
def sourceLoop (head : LoopHead) : Parse Unit := do
  let overKeys ← atWord "in"
  pass
  if overKeys then
    let _ ← expression inner setting
  else
    let _ ← inner.assignment setting
  expect ")"
  if head.awaits && overKeys then report head.line
  inner.statement setting .single

/-- Reads the rest of a `for` statement behind a declaration. -/
def declaredLoop (head : LoopHead) : Parse Unit := do
  if ← atSource then sourceLoop inner setting head else countingLoop inner setting head

/-- Reads the rest of a `for` statement that starts with an expression. -/
def expressionLoop (head : LoopHead) : Parse Unit := do
  let first ← token
  let asyncOf ←
    if first.lexeme = .word "async" && !first.escaped then
      pure ((← ahead 1).lexeme == .word "of")
    else pure false
  let form ← expression inner { setting with membership := false }
  if ← atSource then
    if (← attempt form.asTarget).isNone then stop first.line
    if asyncOf && !head.awaits then report first.line
    sourceLoop inner setting head
  else countingLoop inner setting head

/-- Whether a declaration of variables starts the head of a `for` statement. -/
def startsLoopDeclaration : Parse Bool := do
  match ← lexeme with
  | .word "var" => return true
  | .word "const" => return true
  | .word "let" =>
    match (← ahead 1).lexeme with
    | .word word => return word != "in"
    | .mark mark => return mark = "[" || mark = "\x7b"
    | _ => return false
  | _ => return false

/-- A `for` statement. -/
def loop : Parse Unit := do
  let start ← line
  pass
  let awaits ← atWord "await"
  if awaits then
    if !setting.async then report (← line)
    pass
  let head : LoopHead := ⟨start, awaits⟩
  expect "("
  if ← atMark ";" then countingLoop inner setting head
  else if ← startsLoopDeclaration then
    declaration inner { setting with membership := false } .loop
    declaredLoop inner setting head
  else if ← startsResources then
    resources inner { setting with membership := false } .loop
    declaredLoop inner setting head
  else if ← atMark ")" then countingLoop inner setting head
  else expressionLoop inner setting head

/-! ### Jumps -/

/-- Reads a `break` or `continue` statement. -/
def jumpStatement : Parse Unit := do
  pass
  if !(← endsHere) then labelName setting
  semicolon

/-- Reads a `return` statement, which stands in a function. -/
def returnStatement : Parse Unit := do
  let start ← line
  pass
  if !(← eat ";") && !(← endsHere) then
    let _ ← expression inner setting.bracketed
    semicolon
  if !setting.inFunction then report start

/-- Reads a `throw` statement, whose value stands on the same line. -/
def throwStatement : Parse Unit := do
  let start ← line
  pass
  if ← onNewLine then report start
  let _ ← expression inner setting
  semicolon

/-- Reads what is caught, and what is done then. -/
def catchClause : Parse Unit := do
  pass
  if ← eat "(" then
    let _ ← inner.pattern setting
    expect ")"
  statements inner setting .block

/-- A `try` statement. -/
def tryStatement : Parse Unit := do
  pass
  statements inner setting .block
  let blockEnd := (← get).lastLine
  let catches ← atWord "catch"
  if catches then catchClause inner setting
  let finishes ← eatWord "finally"
  if finishes then statements inner setting .block
  if !catches && !finishes then report blockEnd

/-! ### All statements -/

/-- Reads a function that is a statement. Where only one statement may stand, it is plain. -/
def functionStatement : Parse Unit := do
  let start ← line
  let async ← eatWord "async"
  let generator ← functionWord inner setting .declared async
  if placement = .single && (async || generator) then report start

/-- A class as a statement. -/
def classStatement (start : Nat) : Parse Unit := do
  classRest inner setting
  if placement = .single then report start

/-- Reads a declaration of constants. -/
def constStatement : Parse Unit := do
  let start ← line
  declaration inner setting .statement
  if placement = .single then report start

/-- The statement that starts with a reserved word. -/
def reservedStatement? (start : Nat) : String → Option (Parse Unit)
  | "if" => some (ifStatement inner setting)
  | "do" => some (doStatement inner setting)
  | "while" => some (conditionStatement inner setting)
  | "with" => some (conditionStatement inner setting)
  | "for" => some (loop inner setting)
  | "break" => some (jumpStatement setting)
  | "continue" => some (jumpStatement setting)
  | "switch" => some (switchStatement inner setting)
  | "throw" => some (throwStatement inner setting)
  | "try" => some (tryStatement inner setting)
  | "debugger" => some do
    pass
    semicolon
  | "class" => some (classStatement inner setting placement start)
  | "return" => some (returnStatement inner setting)
  | "var" => some (declaration inner setting .statement)
  | "const" => some (constStatement inner setting placement)
  | _ => none

/-- Reads a statement that no reserved word starts. -/
def openStatement : Parse Unit := do
  let token ← token
  if token.lexeme = .word "let" && !token.escaped then letStatement inner setting placement
  else if ← startsFunction then functionStatement inner setting placement
  else if ← startsResources then resources inner setting .statement
  else expressionStatement inner setting

/-- Reads a statement behind its decorators. -/
def plainStatement (start : Nat) : Parse Unit := do
  match ← lexeme with
  | .mark "\x7b" => statements inner setting .block
  | .mark ";" => next
  | .word word =>
    match reservedStatement? inner setting placement start word with
    | some statement => statement
    | none => openStatement inner setting placement
  | _ => openStatement inner setting placement

/-- Whether an import that is no expression comes next. -/
def startsImport : Parse Bool := do
  if ← atWord "import" then
    let following := (← ahead 1).lexeme
    return following != .mark "." && following != .mark "("
  else return false

/-- Reads a statement. In a body, decorators also stand alone, and imports and exports are
statements. -/
def statement : Parse Unit := do
  let start ← line
  if placement = .body then
    if ← atMark "@" then decorators inner setting
    else if ← startsImport then importDeclaration inner setting
    else if ← atWord "export" then exportDeclaration inner setting
    else plainStatement inner setting placement start
  else
    decorators inner setting
    plainStatement inner setting placement start

end TypedScript.Target
