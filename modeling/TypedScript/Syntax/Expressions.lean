/-
**Reading expressions.** An expression is read from left to right into a flat list of tokens. Values
and operators need not alternate here, but two values never stand side by side, no operator is an
assignment, and the last token is a value.
-/

import TypedScript.Keyword
import TypedScript.Number.Decimal
import TypedScript.Source.Escapes
import TypedScript.Syntax.Blocks
import TypedScript.Syntax.Chains
import TypedScript.Syntax.Literals

namespace TypedScript

open Text

/-- The tokens read so far, the last one first, and whether an `await` waits for its operand. -/
structure Scan where
  tokens : List Token
  awaiting : Bool

namespace Scan

/-- Whether the last token is a value. -/
def endsInValue (scan : Scan) : Bool :=
  match scan.tokens with
  | [] => false
  | last :: _ => last.isValue

/-- What a token is called in a diagnostic. -/
def describe : Token → String
  | .number value => String.ofList (Number.literalStyle.write value)
  | .text value => "\"" ++ value ++ "\""
  | .bool value => if value then "true" else "false"
  | .null => "null"
  | .access base _ => base
  | .call base _ _ => base
  | .operator op => op.spelling
  | .group _ => "("
  | .object _ => "\x7b"
  | .array _ => "["
  | .lambda _ _ => "=>"
  | .await _ => "await"

/-- Adds a value, which becomes the operand of an `await` that waits. -/
def pushValue (scan : Scan) (token : Token) (line : Nat) : Reading Scan :=
  if scan.endsInValue then .fail (.unexpectedToken (describe token)) line
  else if scan.awaiting then .done ⟨.await token :: scan.tokens, false⟩
  else .done ⟨token :: scan.tokens, false⟩

/-- One more operator. -/
def pushOperator (scan : Scan) (op : Operator) (line : Nat) : Reading Scan :=
  if op.isAssignment || scan.awaiting then .fail (.unexpectedToken op.spelling) line
  else .done ⟨.operator op :: scan.tokens, false⟩

/-- Adds what a word stands for: a constant, an `await`, or an access chain. -/
def pushWord (inner : Inner) (scan : Scan) (word : List Char) (line : Nat) : Reading Scan :=
  let name := String.ofList word
  if name = "true" then scan.pushValue (.bool true) line
  else if name = "false" then scan.pushValue (.bool false) line
  else if name = "null" then scan.pushValue .null line
  else if name = "await" && !scan.awaiting && !scan.endsInValue then .done ⟨scan.tokens, true⟩
  else if (Keyword.ofSpelling? word).isSome then .fail (.unexpectedKeyword name) line
  else do
    let chain ← readChain inner word line
    scan.pushValue (.access chain.base chain.steps) line

end Scan

/-! ### Parts of an expression -/

/-- The number of characters of the access chain that a text starts with; none if an index never
closes. The first `skip` characters belong to an index that was passed already. -/
def chainLength : Nat → List Char → Option Nat
  | _, [] => some 0
  | skip + 1, _ :: rest => (chainLength skip rest).map (· + 1)
  | 0, c :: rest =>
    if isWordChar c || c == '.' then (chainLength 0 rest).map (· + 1)
    else if c = '[' then
      match balanced '[' ']' (c :: rest) with
      | none => none
      | some (interior, _) => (chainLength (interior.length + 1) rest).map (· + 1)
    else some 0

/-- The arguments of a call. -/
def readArguments (inner : Inner) (line : Nat) : List (List Char) → Reading (List (List Token))
  | [] => .done []
  | text :: rest => do
    let tokens ← inner.expression text line
    let others ← readArguments inner line rest
    return tokens :: others

/-- Reads the word at the start of a text: a call if a parenthesis follows it directly. Gives the
number of characters read too. -/
def readWord (inner : Inner) (scan : Scan) (text : List Char) (line : Nat) :
    Reading (Scan × Nat) := do
  let length ← Reading.require (chainLength 0 text) (.expectedToken "]") line
  let word := text.take length
  let after := text.drop length
  if after.head? = some '(' then
    let (interior, _) ← Reading.require (balanced '(' ')' after) (.expectedToken ")") line
    let chain ← readChain inner word line
    let arguments ← readArguments inner line (splitArguments interior)
    let scan ← scan.pushValue (.call chain.base chain.steps arguments) line
    return (scan, length + interior.length + 2)
  else
    let scan ← scan.pushWord inner word line
    return (scan, length)

/-- Reads a lambda from its parameters on; the cursor stands behind the closing parenthesis. -/
def readLambda (inner : Inner) (params : List Char) (cursor : Cursor) (line : Nat) :
    Reading (Token × Cursor) := do
  let cursor := (cursor.advance 2).skipBlank
  if cursor.peek 0 ≠ some '{' then Reading.fail .arrowWithoutBlock line
  else
    let params ← Reading.lift line (readParameters true params)
    let (body, cursor) ← readBlock inner cursor line
    return (.lambda params body, cursor)

/-- Reads what stands at an opening parenthesis: a lambda if an arrow follows the closing one,
otherwise a group. -/
def readParenthesized (inner : Inner) (cursor : Cursor) (line : Nat) : Reading (Token × Cursor) :=
  match cursor.takeBalanced '(' ')' with
  | (none, _) => .fail (.expectedToken ")") line
  | (some interior, after) =>
    let after := after.skipBlank
    if after.startsWith ['=', '>'] then readLambda inner interior after line
    else do
      let tokens ← inner.expression interior line
      return (.group tokens, after)

/-- Whether a number starts here. A minus sign belongs to a number unless a value stands before
it. -/
def startsNumber (scan : Scan) (c : Char) (rest : List Char) : Bool :=
  let beforeDigit := rest.head?.any isAsciiDigit
  isAsciiDigit c || (c == '.' && beforeDigit) || (c == '-' && beforeDigit && !scan.endsInValue)

/-- A number and the length of its text. -/
def readNumber (c : Char) (rest : List Char) (line : Nat) : Reading (Token × Nat) :=
  let text := c :: rest.takeWhile fun c => isAsciiDigit c || c == '.'
  match Decimal.ofPlain? text with
  | some value => .done (.number value, text.length)
  | none => .fail (.invalidLiteral ("invalid number '" ++ String.ofList text ++ "'")) line

/-! ### Whole expressions -/

/-- Reads tokens up to the end of the text. The first `skip` characters belong to a token that was
read already, and `passed` are the characters before the text, the nearest one first. -/
def scanTokens (inner : Inner) (line : Nat) : Nat → Scan → List Char → List Char → Reading Scan
  | _, scan, _, [] => .done scan
  | skip + 1, scan, passed, c :: rest => scanTokens inner line skip scan (c :: passed) rest
  | 0, scan, passed, c :: rest =>
    if isBlank c then scanTokens inner line 0 scan (c :: passed) rest
    else if c = '"' then do
      let (denoted, after) ← Reading.require (decodeFrom 0 rest) (.expectedToken "\"") line
      let scan ← scan.pushValue (.text (String.ofList denoted)) line
      scanTokens inner line (rest.length - after.length) scan (c :: passed) rest
    else if c = '(' then do
      let cursor : Cursor := ⟨passed, c :: rest⟩
      let (token, after) ← readParenthesized inner cursor line
      let scan ← scan.pushValue token line
      scanTokens inner line (after.position - cursor.position - 1) scan (c :: passed) rest
    else if c = '{' then do
      let (literal, length) ← readLiteral '{' '}' (c :: rest) line
      let scan ← scan.pushValue (.object literal) line
      scanTokens inner line (length - 1) scan (c :: passed) rest
    else if c = '[' then do
      let (literal, length) ← readLiteral '[' ']' (c :: rest) line
      let scan ← scan.pushValue (.array literal) line
      scanTokens inner line (length - 1) scan (c :: passed) rest
    else if startsNumber scan c rest then do
      let (token, length) ← readNumber c rest line
      let scan ← scan.pushValue token line
      scanTokens inner line (length - 1) scan (c :: passed) rest
    else
      match Operator.longestAt? (c :: rest) with
      | some op => do
        let scan ← scan.pushOperator op line
        scanTokens inner line (op.length - 1) scan (c :: passed) rest
      | none =>
        if isWordChar c then do
          let (scan, length) ← readWord inner scan (c :: rest) line
          scanTokens inner line (length - 1) scan (c :: passed) rest
        else .fail (.unexpectedToken (String.ofList [c])) line

/-- The tokens of a whole text. -/
def readExpression (inner : Inner) (text : List Char) (line : Nat) : Reading (List Token) := do
  let scan ← scanTokens inner line 0 ⟨[], false⟩ [] text
  if !scan.endsInValue || scan.awaiting then Reading.fail .unexpectedEnd line
  else return scan.tokens.reverse

end TypedScript
