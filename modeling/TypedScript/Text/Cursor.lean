/-
**Cursors.** A position in a text, kept as the characters already passed and those still ahead.
-/

import TypedScript.Text.Balanced
import TypedScript.Text.Blank

namespace TypedScript.Text

/-- A text split at a position. -/
structure Cursor where
  /-- The characters before the position, the nearest one first. -/
  passed : List Char
  /-- The characters from the position on. -/
  ahead : List Char
  deriving DecidableEq, Repr

namespace Cursor

/-- A cursor in front of a text. -/
def start (text : List Char) : Cursor :=
  ⟨[], text⟩

variable (cursor : Cursor)

/-- The number of characters before the position. -/
def position : Nat :=
  cursor.passed.length

/-- Whether no character is left. -/
def atEnd : Bool :=
  cursor.ahead.isEmpty

/-- A character ahead. -/
def peek (n : Nat) : Option Char :=
  cursor.ahead[n]?

/-- Moves over up to `n` characters, stopping at the end. -/
def advance (n : Nat) : Cursor :=
  ⟨(cursor.ahead.take n).reverse ++ cursor.passed, cursor.ahead.drop n⟩

/-- Moves over blank characters. -/
def skipBlank : Cursor :=
  cursor.advance (cursor.ahead.takeWhile isBlank).length

/-- Whether a text comes next. -/
def startsWith (text : List Char) : Bool :=
  text.isPrefixOf cursor.ahead

/-- Takes the balanced region at the position. The cursor moves behind it; it stays where it is if
no region starts there, and goes to the end of the text if the region never closes. -/
def takeBalanced (opener closer : Char) : Option (List Char) × Cursor :=
  match balanced opener closer cursor.ahead with
  | some (interior, _) => (some interior, cursor.advance (interior.length + 2))
  | none =>
    if cursor.peek 0 = some opener then (none, cursor.advance cursor.ahead.length)
    else (none, cursor)

/-- The number of newlines before the position. -/
def newlinesPassed : Nat :=
  cursor.passed.count '\n'

end Cursor

end TypedScript.Text
