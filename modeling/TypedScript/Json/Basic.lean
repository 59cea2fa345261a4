/-
**JSON values.** Integers that fit 64 bits stay exact, all other numbers are double-precision. The
objects that are read have their fields sorted by key, and no key occurs twice.
-/

import TypedScript.Number.Style

namespace TypedScript

/-- A JSON value. -/
inductive Json where
  | null
  | bool (value : Bool)
  /-- A whole number written without point or exponent. -/
  | int (value : Int)
  /-- Any other number. -/
  | float (value : Binary64)
  | text (value : String)
  | array (items : List Json)
  | object (fields : List (String × Json))
  deriving Repr

namespace Json

/-- Sets a field, keeping the fields sorted by key. -/
def insertField (key : String) (value : Json) : List (String × Json) → List (String × Json)
  | [] => [(key, value)]
  | (other, existing) :: rest =>
    if key = other then (key, value) :: rest
    else if key < other then (key, value) :: (other, existing) :: rest
    else (other, existing) :: insertField key value rest

/-- Numbers in JSON text: a fraction always shows, and an exponent stands outside
`10 ^ -5 … 10 ^ 15`. -/
def numberStyle : Number.Style where
  tie := .toEven
  fraction := true
  isPlain leading := -5 ≤ leading && leading ≤ 15

/-! ### Compact text -/

/-- One character of a string literal: quotes, backslashes and controls are escaped, and nothing
else is. -/
def escapedChar (c : Char) : List Char :=
  if c = '"' then ['\\', '"']
  else if c = '\\' then ['\\', '\\']
  else if c = '\n' then ['\\', 'n']
  else if c = '\r' then ['\\', 'r']
  else if c = '\t' then ['\\', 't']
  else if c = '\x08' then ['\\', 'b']
  else if c = '\x0c' then ['\\', 'f']
  else if c.toNat < 16 then ['\\', 'u', '0', '0', '0'] ++ Nat.toDigits 16 c.toNat
  else if c.toNat < 32 then ['\\', 'u', '0', '0'] ++ Nat.toDigits 16 c.toNat
  else [c]

/-- A string literal between double quotes. -/
def writeText (text : String) : String :=
  String.ofList ('"' :: (text.toList.flatMap escapedChar ++ ['"']))

/-- The decimal text of a whole number. -/
def writeInt (value : Int) : String :=
  String.ofList (Number.signed (value < 0) (Nat.toDigits 10 value.natAbs))

mutual

/-- The compact text, without any space. -/
def write : Json → String
  | .null => "null"
  | .bool value => if value then "true" else "false"
  | .int value => writeInt value
  | .float value => String.ofList (numberStyle.write value)
  | .text value => writeText value
  | .array items => "[" ++ writeItems items ++ "]"
  | .object fields => "\x7b" ++ writeFields fields ++ "\x7d"

/-- The items of an array, separated by commas. -/
def writeItems : List Json → String
  | [] => ""
  | [item] => write item
  | item :: rest => write item ++ "," ++ writeItems rest

/-- The fields of an object, separated by commas. -/
def writeFields : List (String × Json) → String
  | [] => ""
  | [(key, value)] => writeText key ++ ":" ++ write value
  | (key, value) :: rest => writeText key ++ ":" ++ write value ++ "," ++ writeFields rest

end

end Json

end TypedScript
