/-
**Indented JSON text.** Every item and every field stands on a line of its own, indented by two
spaces for each bracket around it. Empty lists and objects have no line inside.
-/

import TypedScript.Json.Basic

namespace TypedScript.Json

/-- The spaces in front of a line inside `depth` brackets. -/
def margin (depth : Nat) : String :=
  String.ofList (List.replicate (2 * depth) ' ')

/-- Lines between an opening and a closing bracket that stands inside `depth` brackets. -/
def enclosed (opener closer : String) (depth : Nat) (lines : String) : String :=
  opener ++ "\n" ++ lines ++ "\n" ++ margin depth ++ closer

mutual

/-- The indented text of a value inside `depth` brackets. -/
def prettyAt (depth : Nat) : Json → String
  | .array [] => "[]"
  | .array (item :: rest) => enclosed "[" "]" depth (prettyItems (depth + 1) (item :: rest))
  | .object [] => "\x7b\x7d"
  | .object (field :: rest) =>
    enclosed "\x7b" "\x7d" depth (prettyFields (depth + 1) (field :: rest))
  | value => value.write

/-- The items of a list, one a line. -/
def prettyItems (depth : Nat) : List Json → String
  | [] => ""
  | [item] => margin depth ++ prettyAt depth item
  | item :: rest => margin depth ++ prettyAt depth item ++ ",\n" ++ prettyItems depth rest

/-- The lines of the fields of an object. -/
def prettyFields (depth : Nat) : List (String × Json) → String
  | [] => ""
  | [(key, value)] => margin depth ++ writeText key ++ ": " ++ prettyAt depth value
  | (key, value) :: rest =>
    margin depth ++ writeText key ++ ": " ++ prettyAt depth value ++ ",\n" ++
      prettyFields depth rest

end

/-- The indented text of a value. -/
def pretty (value : Json) : String :=
  prettyAt 0 value

end TypedScript.Json
