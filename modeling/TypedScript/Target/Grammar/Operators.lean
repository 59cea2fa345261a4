/-
**Operators.** Operators in front of an operand, behind it and between two of them. Which operators
bind closer makes no difference to whether an expression can be read.
-/

import TypedScript.Target.Grammar.Operands

namespace TypedScript.Target

open Parse

variable (inner : Inner) (setting : Setting)

/-- Whether `await` or `yield` can be an operator in front of a token, also where it is a name
otherwise. -/
def startsArgument (token : Token) : Bool :=
  !token.onNewLine &&
    match token.lexeme with
    | .word word => word != "in" && word != "instanceof"
    | .number | .text _ => true
    | _ => false

/-! ### Operators in front and behind -/

/-- Whether a token tells that `await` in front of it is a name, where it need not be an operator. -/
def followsName : Lexeme → Bool
  | .word word => word == "of"
  | .template _ _ => true
  | .mark mark => ["(", "[", "/", "+", "-"].contains mark
  | _ => false

/-- Whether `await` comes next as an operator. -/
def startsAwait : Parse Bool := do
  if ← atWord "await" then
    let following ← ahead 1
    if following.lexeme = .mark "=>" then return false
    else return setting.async || (!followsName following.lexeme && startsArgument following)
  else return false

/-- Reads `await` and its operand. -/
def awaiting : Parse Form := do
  let start ← line
  if !setting.async then report start
  pass
  let _ ← inner.unary { setting with async := true }
  return .other start

/-- Whether a token is an operator in front of an operand. -/
def isUnary : Lexeme → Bool
  | .word word => ["typeof", "void", "delete"].contains word
  | .mark mark => ["!", "~", "+", "-"].contains mark
  | _ => false

/-- Whether a token is `++` or `--`. -/
def isUpdate (lexeme : Lexeme) : Bool :=
  lexeme = .mark "++" || lexeme = .mark "--"

/-- Reads an operand and a `++` or `--` behind it. -/
def updated : Parse Form := do
  let start ← line
  let form ← leftSide inner setting
  let token ← token
  if isUpdate token.lexeme && !token.onNewLine then
    next
    form.asSimpleTarget
    return .other start
  else return form

/-- An operand with the operators in front of it and behind it. -/
def unary : Parse Form := do
  let start ← line
  let lexeme ← lexeme
  if isUpdate lexeme then
    next
    (← inner.unary setting).asSimpleTarget
    return .other start
  else if isUnary lexeme then
    pass
    let _ ← inner.unary setting
    return .other start
  else if ← startsAwait setting then awaiting inner setting
  else updated inner setting

/-! ### Operators between operands -/

/-- Signs between two operands that always have both values. -/
def binaryMarks : List String :=
  ["|", "^", "&", "==", "!=", "===", "!==", "<", ">", "<=", ">=", "<<", ">>", ">>>", "+", "-", "*",
   "/", "%", "**"]

/-- Signs between two operands of which the second may not be needed. -/
def logicalMarks : List String :=
  ["??", "||", "&&"]

/-- Whether a token is an operator between two operands. -/
def isBinary : Lexeme → Bool
  | .word word => word == "instanceof" || (word == "in" && setting.membership)
  | .mark mark => binaryMarks.contains mark || logicalMarks.contains mark
  | _ => false

/-- Reads an operand between operators. A private name is one if `in` follows it. -/
def binaryOperand : Parse Form := do
  match ← lexeme with
  | .privateName _ =>
    if !setting.membership then unexpected
    let start ← line
    next
    expectWord "in"
    let _ ← unary inner setting
    return .other start
  | _ => unary inner setting

/-- Reads further operators and operands. Type ascriptions are no part of the language. -/
def binaryRest (inner : Inner) (setting : Setting) (start : Nat) : Nat → Form → Parse Form
  | 0, _ => unexpected
  | steps + 1, form => do
    let token ← token
    if isBinary setting token.lexeme then
      pass
      let _ ← binaryOperand inner setting
      binaryRest inner setting start steps (.other start)
    else if !token.onNewLine && (token.lexeme = .word "as" || token.lexeme = .word "satisfies") then
      stop start
    else return form

/-- Operands with operators between them. -/
def binary : Parse Form := do
  let start ← line
  let form ← binaryOperand inner setting
  binaryRest inner setting start inner.steps form

end TypedScript.Target
