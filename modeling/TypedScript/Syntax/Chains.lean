/-
**Access chains.** A name followed by `.property` and `[index]` steps, such as `a.b[c]`.
-/

import TypedScript.Syntax.Reading
import TypedScript.Text.Alphabet
import TypedScript.Text.Balanced

namespace TypedScript

open Text

/-- Reads the steps of a chain. The first `skip` characters belong to a step that was read already;
`whole` is the text of the chain, for diagnostics. -/
def readSteps (inner : Inner) (whole : List Char) (line : Nat) :
    Nat → List Char → Reading (List Step)
  | _, [] => .done []
  | skip + 1, _ :: rest => readSteps inner whole line skip rest
  | 0, c :: rest =>
    if c = '.' then
      let name := leadingWord rest
      if name.isEmpty then .fail (.unexpectedToken (String.ofList whole)) line
      else do
        let steps ← readSteps inner whole line name.length rest
        return .property (String.ofList name) :: steps
    else if c = '[' then
      match balanced '[' ']' (c :: rest) with
      | none => .fail (.expectedToken "]") line
      | some (interior, _) => do
        let index ← inner.expression interior line
        let steps ← readSteps inner whole line (interior.length + 1) rest
        return .index index :: steps
    else .fail (.unexpectedToken (String.ofList whole)) line

/-- The chain a whole text denotes. -/
def readChain (inner : Inner) (text : List Char) (line : Nat) : Reading Chain :=
  let text := trim text
  let base := leadingWord text
  if isIdentifier base then do
    let steps ← readSteps inner text line 0 (text.drop base.length)
    return ⟨String.ofList base, steps⟩
  else .fail (.unexpectedToken (String.ofList text)) line

end TypedScript
