/-
**Cutting a script into statements.** A statement ends at a semicolon outside of braces and
parentheses, or behind the brace that closes an outermost block. A newline outside of brackets is
dropped; if it ends code that neither a semicolon nor a closing brace finished, the semicolon is
reported missing and the statement ends there. Comments are dropped, except that the newlines of a
comment inside brackets stay, so that later lines keep their numbers.

The cutting is one pass of an automaton, `Splitter.step`, over the characters.
-/

import TypedScript.Diagnostic

namespace TypedScript

open Text

/-- The text of one statement, without blanks around it, and the line it starts on. -/
structure Statement where
  text : List Char
  line : Nat
  deriving DecidableEq, Repr

/-- What the next character belongs to. -/
inductive Mode where
  | code
  /-- Behind a slash that may open a comment. -/
  | slash
  | quoted
  /-- Behind a backslash in a string literal. -/
  | escaped
  | lineComment
  | blockComment (star : Bool)
  deriving DecidableEq, Repr

/-- The state of the cutting. Lists hold the latest entry first. -/
structure Splitter where
  mode : Mode
  line : Nat
  braces : Nat
  /-- The open parentheses. -/
  parens : Nat
  finished : Bool
  /-- Whether there was code since the last newline or end of a statement. -/
  fresh : Bool
  /-- The characters of the statement being read. -/
  current : List Char
  /-- The line of its first character that is not blank. -/
  startLine : Option Nat
  statements : List Statement
  diagnostics : List Diagnostic
  deriving Repr

namespace Splitter

/-- The state at the start of a text whose first line has the given number. -/
def start (line : Nat) : Splitter where
  mode := .code
  line := line
  braces := 0
  parens := 0
  finished := true
  fresh := false
  current := []
  startLine := none
  statements := []
  diagnostics := []

variable (splitter : Splitter)

/-- Whether no bracket is open. -/
def outermost : Bool :=
  splitter.braces == 0 && splitter.parens == 0

/-- Adds a character to the statement being read. -/
def push (c : Char) : Splitter :=
  { splitter with
    current := c :: splitter.current
    startLine :=
      if splitter.startLine.isNone && !isBlank c then some splitter.line else splitter.startLine }

/-- Ends the statement being read; one without any code is dropped. -/
def flush : Splitter :=
  let text := trim splitter.current.reverse
  { splitter with
    current := []
    startLine := none
    statements :=
      if text.isEmpty then splitter.statements
      else ⟨text, splitter.startLine.getD splitter.line⟩ :: splitter.statements }

/-- Counts a newline. -/
def nextLine : Splitter :=
  { splitter with line := splitter.line + 1 }

/-- A newline outside of brackets. -/
def breakLine : Splitter :=
  let splitter :=
    if splitter.fresh && !splitter.finished then
      { splitter with
        diagnostics := ⟨.missingSemicolon, splitter.line⟩ :: splitter.diagnostics }.flush
    else splitter
  { splitter with fresh := false, finished := false }.nextLine

/-- A character of code that does not open a comment. -/
def code (c : Char) : Splitter :=
  if c = '"' then { splitter with mode := .quoted, fresh := true }.push c
  else if c = '{' then { splitter with braces := splitter.braces + 1, fresh := true }.push c
  else if c = '}' then
    let splitter := { splitter with braces := splitter.braces - 1, finished := true }.push c
    if splitter.outermost then { splitter.flush with fresh := false } else splitter
  else if c = '(' then { splitter with parens := splitter.parens + 1, fresh := true }.push c
  else if c = ')' then { splitter with parens := splitter.parens - 1 }.push c
  else if c = '\n' then
    if splitter.outermost then splitter.breakLine else (splitter.push c).nextLine
  else if c = ';' && splitter.outermost then
    { splitter.flush with finished := true, fresh := false }
  else if isBlank c then splitter.push c
  else { splitter with fresh := true, finished := false }.push c

/-- A character of code, where a slash waits for the next character. -/
def codeOrSlash (c : Char) : Splitter :=
  if c = '/' then { splitter with mode := .slash } else splitter.code c

/-- The state after one more character. -/
def step (c : Char) : Splitter :=
  match splitter.mode with
  | .code => splitter.codeOrSlash c
  | .slash =>
    if c = '/' then { splitter with mode := .lineComment }
    else if c = '*' then { splitter with mode := .blockComment false }
    else ({ splitter with mode := .code }.code '/').codeOrSlash c
  | .quoted =>
    let splitter := splitter.push c
    if c = '\\' then { splitter with mode := .escaped }
    else if c = '"' then { splitter with mode := .code }
    else if c = '\n' then splitter.nextLine
    else splitter
  | .escaped => { splitter with mode := .quoted }.push c
  | .lineComment => if c = '\n' then { splitter with mode := .code }.code c else splitter
  | .blockComment star =>
    if star && c == '/' then { splitter with mode := .code }
    else
      let splitter := { splitter with mode := .blockComment (c == '*') }
      if c = '\n' then
        let splitter := splitter.nextLine
        if splitter.outermost then splitter else splitter.push c
      else splitter

/-- The state at the end of the text. -/
def finish : Splitter :=
  match splitter.mode with
  | .slash => ({ splitter with mode := .code }.code '/').flush
  | _ => splitter.flush

end Splitter

/-- The statements of a text whose first line has the given number, and the diagnostics. -/
def splitStatements (text : List Char) (line : Nat) : List Statement × List Diagnostic :=
  let splitter := (text.foldl Splitter.step (Splitter.start line)).finish
  (splitter.statements.reverse, splitter.diagnostics.reverse)

end TypedScript
