/-
**Parsing scripts.** Readers for text inside brackets are built from readers for text one level
further inside. As brackets take characters, a text is never nested deeper than it is long.

Parsing is all or nothing: if there is any diagnostic, no statement is given.
-/

import TypedScript.Syntax.Statements

namespace TypedScript

/-- Readers for text nested up to a given depth. -/
def Inner.upTo : Nat → Inner
  | 0 => ⟨fun _ _ => .exhausted, fun _ _ => .exhausted⟩
  | depth + 1 =>
    ⟨fun text line => readExpression (Inner.upTo depth) text line,
     fun text line => readBody (Inner.upTo depth) text line⟩

/-- Readers for the brackets inside a text. -/
def Inner.within (text : List Char) : Inner :=
  Inner.upTo text.length

/-- The statements of a script, or all its diagnostics. -/
structure Parsed where
  statements : List Stmt
  diagnostics : List Diagnostic

/-- Parses a whole script. -/
def parse (source : List Char) : Parsed :=
  let reading := readBody (Inner.within source) source 1
  match reading.collected, reading.outcome with
  | [], .ok statements => ⟨statements, []⟩
  | diagnostics, _ => ⟨[], diagnostics⟩

end TypedScript
