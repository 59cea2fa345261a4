/-
**Reading statements.** The first word of a statement decides its kind. Any other statement is a
declaration or modification, if it has an assignment, or an expression.

A statement that cannot be read is reported and left out, and the next one is read. An `else` joins
the `if` that was read last.
-/

import TypedScript.Source.Assignment
import TypedScript.Source.Statements
import TypedScript.Syntax.Expressions

namespace TypedScript

open Text

/-! ### Declarations, modifications and expressions -/

/-- Whether a declared name can start with the character. Declarations know the letters of version
16 of the database only. -/
def startsDeclared (c : Char) : Bool :=
  (isLetter c && !isNewest c) || c == '_'

/-- Whether a declared name can have the character behind the first one. -/
def continuesDeclared (c : Char) : Bool :=
  startsDeclared c || (isNumeral c && !isNewest c)

/-- Whether a text consists of letters, numerals and underscores and starts with no numeral. -/
def isDeclaredName : List Char → Bool
  | [] => false
  | first :: rest => startsDeclared first && rest.all continuesDeclared

/-- Whether a text has only characters that types are written with. -/
def isDeclaredType : List Char → Bool
  | [] => false
  | first :: rest =>
    startsDeclared first &&
      rest.all fun c => continuesDeclared c || "<>,|".toList.contains c || isBlank c

/-- The type and name of `<type> <name>`, the left side of a declaration. -/
def splitDeclaration (text : List Char) : Option (List Char × List Char) :=
  match splitLastBlank text with
  | none => none
  | some (front, name) =>
    let type := trimEnd front
    if isDeclaredType type && isDeclaredName name then some (type, name) else none

/-- A statement that is a single call is told apart from other expressions. -/
def Kind.ofTokens : List Token → Kind
  | [.call base steps arguments] => .call base steps arguments
  | tokens => .expression tokens

variable (inner : Inner) (text : List Char) (line : Nat)

/-- Reads a declaration, a modification or an expression; only a declaration can be constant. -/
def readAssignment (constant : Bool) : Reading Stmt :=
  match splitAssignment text with
  | none =>
    if constant then .fail (.unexpectedKeyword "const") line
    else do
      let tokens ← readExpression inner text line
      return .mk line (.ofTokens tokens)
  | some (left, op, right) =>
    let left := trim left
    let right := trim right
    if right.isEmpty then .fail .unexpectedEnd line
    else
      match splitDeclaration left with
      | some (type, name) =>
        if op ≠ .assign then .fail (.unexpectedToken op.spelling) line
        else do
          let type ← Reading.lift line (readType type)
          let value ← readExpression inner right line
          return .mk line (.declare (String.ofList name) type value constant)
      | none =>
        if constant then .fail (.unexpectedKeyword "const") line
        else do
          let chain ← readChain inner left line
          let value ← readExpression inner right line
          return .mk line (.modify chain.base chain.steps op value)

/-! ### Statements with a keyword -/

/-- A `return` statement. -/
def readReturn : Reading Stmt :=
  let value := trim (text.drop "return".length)
  if value.isEmpty then .done (.mk line (.returns none))
  else do
    let tokens ← readExpression inner value line
    return .mk line (.returns (some tokens))

/-- Reads `const` and a declaration. No keyword may follow, but `func` is also a type. -/
def readConstant : Reading Stmt :=
  let declaration := trim (text.drop "const".length)
  let declares := (splitAssignment declaration).isSome
  match Keyword.leading? declaration with
  | none => readAssignment inner declaration line true
  | some keyword =>
    if keyword = .function ∧ declares then readAssignment inner declaration line true
    else .fail (.unexpectedKeyword "const") line

/-- Reads `import` and a path between double quotes, which knows no escapes. -/
def readImport (text : List Char) (line : Nat) : Reading Stmt :=
  let cursor := (Cursor.start (text.drop "import".length)).skipBlank
  if cursor.peek 0 ≠ some '"' then .fail (.expectedToken "\"") line
  else
    let path := (cursor.advance 1).ahead.takeWhile fun c => c != '"'
    let cursor := cursor.advance (path.length + 1)
    if cursor.atEnd then .fail (.expectedToken "\"") line
    else do
      ensureEnd (cursor.advance 1) line
      return .mk line (.imports (String.ofList path))

/-- Reads `func <type> <name>(<parameters>) { <body> }`. -/
def readFunction : Reading Stmt := do
  let cursor := (Cursor.start text).advance "func".length
  let header := cursor.ahead.takeWhile fun c => c != '('
  let cursor := cursor.advance header.length
  if cursor.atEnd then Reading.fail (.expectedToken "(") line
  else
    let (type, name) ← Reading.require (splitLastBlank (trim header)) .expectedReturnType line
    if !isIdentifier name then Reading.fail (.unexpectedToken (String.ofList name)) line
    else
      let returns ← Reading.lift line (readType (trim type))
      match cursor.takeBalanced '(' ')' with
      | (none, _) => Reading.fail (.expectedToken ")") line
      | (some interior, cursor) =>
        let params ← Reading.lift line (readParameters false interior)
        let (body, cursor) ← readBlock inner cursor line
        ensureEnd cursor line
        return .mk line (.function (String.ofList name) params returns body)

/-- The condition and the body of an `if` or a loop. -/
def readConditional (keyword : Keyword) (text : List Char) (line : Nat) :
    Reading (List Token × List Stmt) := do
  let cursor := ((Cursor.start text).advance keyword.spelling.length).skipBlank
  if cursor.peek 0 ≠ some '(' then Reading.fail (.expectedToken "(") line
  else
    match cursor.takeBalanced '(' ')' with
    | (none, _) => Reading.fail (.expectedToken ")") line
    | (some interior, cursor) =>
      let condition ← inner.expression interior line
      let (body, cursor) ← readBlock inner cursor line
      ensureEnd cursor line
      return (condition, body)

/-- One statement. -/
def readCommand : Reading Stmt :=
  let text := trim text
  match Keyword.leading? text with
  | some .returns => readReturn inner text line
  | some .constant => readConstant inner text line
  | some .imports => readImport text line
  | some .function =>
    if (splitAssignment text).isNone then readFunction inner text line
    else readAssignment inner text line false
  | some .ifThen => do
    let (condition, body) ← readConditional inner .ifThen text line
    return .mk line (.branch condition body .nothing)
  | some .loop => do
    let (condition, body) ← readConditional inner .loop text line
    return .mk line (.loop condition body)
  | some .otherwise => .fail .danglingElse line
  | some .await => readAssignment inner text line false
  | none => readAssignment inner text line false

/-- Reads an `else` statement: the branch it adds to an `if`. -/
def readElse : Reading Otherwise :=
  let rest := trimStart ((trim text).drop "else".length)
  if Keyword.leading? rest = some .ifThen then do
    let (condition, body) ← readConditional inner .ifThen (trim rest) line
    return .elseIf line condition body .nothing
  else do
    let (body, cursor) ← readBlock inner (Cursor.start rest) line
    ensureEnd cursor line
    return .block body

/-! ### Blocks of statements -/

/-- Adds a branch to the statement read last, which has to be an `if` without a plain `else`. -/
def attachElse (branch : Otherwise) (line : Nat) : List Stmt → Reading (List Stmt)
  | [] => ⟨[⟨.danglingElse, line⟩], .ok []⟩
  | last :: earlier =>
    match last.attach? branch with
    | some joined => .done (joined :: earlier)
    | none => ⟨[⟨.danglingElse, line⟩], .ok (last :: earlier)⟩

/-- Reads one statement of a block into the statements read so far, the last one first. -/
def readStatement (read : List Stmt) (statement : Statement) : Reading (List Stmt) :=
  if statement.text.isEmpty then .done read
  else if leadingWord statement.text = "else".toList then do
    match ← (readElse inner statement.text statement.line).recover with
    | some branch => attachElse branch statement.line read
    | none => return read
  else do
    match ← (readCommand inner statement.text statement.line).recover with
    | some stmt => return stmt :: read
    | none => return read

/-- Reads statements into those read so far, the last one first. -/
def readStatements (inner : Inner) : List Stmt → List Statement → Reading (List Stmt)
  | read, [] => .done read.reverse
  | read, statement :: rest => do
    let read ← readStatement inner read statement
    readStatements inner read rest

/-- Reads the text of a block or script that starts on the given line. -/
def readBody : Reading (List Stmt) := do
  let (statements, missing) := splitStatements text line
  Reading.collect missing
  readStatements inner [] statements

end TypedScript
