/-
**Blocks and parameter lists.** What functions and lambdas are made of.
-/

import TypedScript.Source.Lists
import TypedScript.Syntax.Reading
import TypedScript.Text.Cursor
import TypedScript.Types.Reading

namespace TypedScript

open Text

/-- Reads the block at the cursor. The text under the cursor starts on the given line. -/
def readBlock (inner : Inner) (cursor : Cursor) (line : Nat) : Reading (List Stmt × Cursor) :=
  let cursor := cursor.skipBlank
  if cursor.peek 0 ≠ some '{' then .fail (.expectedToken "\x7b") line
  else
    match cursor.takeBalanced '{' '}' with
    | (none, _) => .fail (.expectedToken "\x7d") line
    | (some interior, after) => do
      let body ← inner.body interior (line + cursor.newlinesPassed)
      return (body, after)

/-- Nothing but blanks may be left. -/
def ensureEnd (cursor : Cursor) (line : Nat) : Reading Unit :=
  let cursor := cursor.skipBlank
  if cursor.atEnd then .done ()
  else .fail (.unexpectedToken (String.ofList (trim cursor.ahead))) line

/-- Cuts a text at its last blank, which belongs to neither part. -/
def splitLastBlank (text : List Char) : Option (List Char × List Char) :=
  let last := (text.reverse.takeWhile fun c => !isBlank c).reverse
  if last.length = text.length then none
  else some (text.take (text.length - last.length - 1), last)

/-- The type that a text denotes, or the cause why it denotes none. -/
def readType (text : List Char) : Except Cause Ty :=
  match Ty.read? text with
  | some type => .ok type
  | none => .error (.invalidType (String.ofList (trim text)))

/-- Reads one parameter. Without a type it is of type `any`, if that may be left out. -/
def readParameter (untyped : Bool) (text : List Char) : Except Cause Param :=
  let invalid := Cause.invalidParameter (String.ofList text)
  let named (type : Ty) (name : List Char) : Except Cause Param :=
    if isIdentifier name then .ok ⟨String.ofList name, type⟩ else .error invalid
  match splitLastBlank text with
  | some (type, name) => do
    let type ← readType type
    named type name
  | none => if untyped then named .any text else .error invalid

/-- All parameters, or the first cause. -/
def readParameterList (untyped : Bool) : List (List Char) → Except Cause (List Param)
  | [] => .ok []
  | text :: rest => do
    let param ← readParameter untyped text
    let params ← readParameterList untyped rest
    return param :: params

/-- A parameter list, `<type> <name>, ...`. -/
def readParameters (untyped : Bool) (text : List Char) : Except Cause (List Param) :=
  readParameterList untyped (splitParameters text)

/-- A value that was found without a reading, or the cause why there is none. -/
def Reading.lift {α : Type} (line : Nat) : Except Cause α → Reading α
  | .ok value => .done value
  | .error cause => .fail cause line

end TypedScript
