/-
**List and object literals.** They are written in JSON. Their element type is `string` or `number`
if all values are of that kind, and `any` otherwise.
-/

import TypedScript.Json.Reader
import TypedScript.Syntax.Reading
import TypedScript.Text.Balanced

namespace TypedScript

open Text

namespace Json

/-- Whether the value is a string. -/
def isText : Json → Bool
  | .text _ => true
  | _ => false

/-- Whether a value is a number. -/
def isNumber : Json → Bool
  | .int _ | .float _ => true
  | _ => false

/-- The values of a list or object. -/
def elements : Json → List Json
  | .array items => items
  | .object fields => fields.map Prod.snd
  | _ => []

/-- The type that all elements of a value have. -/
def elementType (value : Json) : Ty :=
  let elements := value.elements
  if elements.isEmpty then .any
  else if elements.all isText then .string
  else if elements.all isNumber then .number
  else .any

end Json

/-- Reads the literal that a text starts with, and counts its characters. The text starts with the
given opening bracket. -/
def readLiteral (opener closer : Char) (text : List Char) (line : Nat) : Reading (Literal × Nat) :=
  match balanced opener closer text with
  | none => .fail (.expectedToken (String.ofList [closer])) line
  | some (interior, _) =>
    let raw := opener :: (interior ++ [closer])
    match Json.parse raw with
    | .error fault => .fail (.invalidLiteral (fault.message raw)) line
    | .ok value => .done (⟨value, value.elementType⟩, raw.length)

end TypedScript
