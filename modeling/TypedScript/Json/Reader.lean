/-
**Reading JSON.** Values are read from left to right and the first fault ends the reading. Lists and
objects may be nested at most 127 deep.
-/

import TypedScript.Json.Number

namespace TypedScript.Json

open Text

/-! ### Lists and objects -/

/-- Whether another item follows in a list. A comma is read if one is due, the closing bracket is
not read. -/
def hasItem (first : Bool) : Reader Bool := fun input =>
  let input := input.skipSpace
  match input.rest with
  | [] => .error (input.ahead .endInList)
  | ']' :: _ => .ok (false, input)
  | c :: _ =>
    if first then .ok (true, input)
    else if c = ',' then
      let input := (input.drop 1).skipSpace
      match input.rest with
      | [] => .error (input.ahead .endInValue)
      | ']' :: _ => .error (input.ahead .trailingComma)
      | _ :: _ => .ok (true, input)
    else .error (input.ahead .expectedListEnd)

/-- The end of a list. -/
def endList (input : Input) : Except Fault Input :=
  let input := input.skipSpace
  match input.rest with
  | [] => .error (input.ahead .endInList)
  | ']' :: _ => .ok (input.drop 1)
  | ',' :: _ =>
    let input := (input.drop 1).skipSpace
    match input.rest with
    | ']' :: _ => .error (input.ahead .trailingComma)
    | _ => .error (input.ahead .trailingCharacters)
  | _ :: _ => .error (input.ahead .trailingCharacters)

/-- Whether another field follows in an object. A comma is read if one is due, neither the quote of
the key nor the closing brace is. -/
def hasField (first : Bool) : Reader Bool := fun input =>
  let input := input.skipSpace
  match input.rest with
  | [] => .error (input.ahead .endInObject)
  | '}' :: _ => .ok (false, input)
  | c :: _ =>
    if first then
      if c = '"' then .ok (true, input) else .error (input.ahead .keyNotText)
    else if c = ',' then
      let input := (input.drop 1).skipSpace
      match input.rest with
      | [] => .error (input.ahead .endInValue)
      | '"' :: _ => .ok (true, input)
      | '}' :: _ => .error (input.ahead .trailingComma)
      | _ :: _ => .error (input.ahead .keyNotText)
    else .error (input.ahead .expectedObjectEnd)

/-- The colon behind a key. -/
def readColon (input : Input) : Except Fault Input :=
  let input := input.skipSpace
  match input.rest with
  | [] => .error (input.ahead .endInObject)
  | ':' :: _ => .ok (input.drop 1)
  | _ :: _ => .error (input.ahead .expectedColon)

/-- The end of an object. -/
def endObject (input : Input) : Except Fault Input :=
  let input := input.skipSpace
  match input.rest with
  | [] => .error (input.ahead .endInObject)
  | '}' :: _ => .ok (input.drop 1)
  | ',' :: _ => .error (input.ahead .trailingComma)
  | _ :: _ => .error (input.ahead .trailingCharacters)

/-- Reads the items of a list up to its closing bracket. There are no more items than characters, so
`fuel` is the number of characters. -/
def readItems {α : Type} (item : Reader α) : Nat → Bool → Reader (List α)
  | 0, _, input => .error (input.ahead .endInList)
  | fuel + 1, first, input => do
    let (more, input) ← hasItem first input
    if more then
      let (value, input) ← item input
      let (values, input) ← readItems item fuel false input
      return (value :: values, input)
    else return ([], input)

/-- The fields of an object up to its end. -/
def readFields (value : Reader Json) : Nat → Bool → Reader (List (String × Json))
  | 0, _, input => .error (input.ahead .endInObject)
  | fuel + 1, first, input => do
    let (more, input) ← hasField first input
    if more then
      let (key, input) ← readText (input.drop 1)
      let input ← readColon input
      let (field, input) ← value input
      let (fields, input) ← readFields value fuel false input
      return ((key, field) :: fields, input)
    else return ([], input)

/-! ### Values -/

/-- How deep lists and objects may be nested. -/
def depthLimit : Nat := 127

/-- Reads one value, of which at most `room` nested brackets may be open at a time. -/
def readValue (room : Nat) : Reader Json := fun input =>
  let input := input.skipSpace
  match input.rest with
  | [] => .error (input.ahead .endInValue)
  | c :: _ =>
    if c = 'n' then do return (.null, ← (input.drop 1).readWord ['u', 'l', 'l'])
    else if c = 't' then do return (.bool true, ← (input.drop 1).readWord ['r', 'u', 'e'])
    else if c = 'f' then do return (.bool false, ← (input.drop 1).readWord ['a', 'l', 's', 'e'])
    else if c = '-' then readNumber true (input.drop 1)
    else if isAsciiDigit c then readNumber false input
    else if c = '"' then do
      let (content, input) ← readText (input.drop 1)
      return (.text content, input)
    else if c = '[' then
      match room with
      | 0 => .error (input.ahead .tooDeep)
      | inner + 1 => do
        let input := input.drop 1
        let (items, input) ← readItems (readValue inner) (input.rest.length + 1) true input
        return (.array items, ← endList input)
    else if c = '{' then
      match room with
      | 0 => .error (input.ahead .tooDeep)
      | inner + 1 => do
        let input := input.drop 1
        let (fields, input) ← readFields (readValue inner) (input.rest.length + 1) true input
        let sorted := fields.foldl (fun fields (key, value) => insertField key value fields) []
        return (.object sorted, ← endObject input)
    else .error (input.ahead .expectedValue)

/-- Nothing but white space may be left. -/
def endText (input : Input) : Except Fault Unit :=
  let input := input.skipSpace
  if input.rest.isEmpty then .ok () else .error (input.ahead .trailingCharacters)

/-- A text that is one value and nothing else. -/
def parse (text : List Char) : Except Fault Json := do
  let (value, input) ← readValue depthLimit (Input.start text)
  endText input
  return value

/-! ### Passing over values -/

/-- What is due next when passing over a value. -/
inductive Due where
  /-- A value. -/
  | value
  /-- The end of the innermost bracket or, behind an item, a comma. -/
  | next (behindItem : Bool)
  deriving DecidableEq, Repr

/-- Passes over the key and the colon of a field. -/
def skipKey (input : Input) : Except Fault Input := do
  let input := input.skipSpace
  match input.rest with
  | [] => .error (input.ahead .endInObject)
  | '"' :: _ =>
    let input ← skipTextFrom 0 (input.drop 1).rest (input.bytes + 1)
    readColon input
  | _ :: _ => .error (input.ahead .keyNotText)

/-- Passes over a value that is no list and no object. -/
def skipScalar (input : Input) (c : Char) : Except Fault Input :=
  if c = 'n' then (input.drop 1).readWord ['u', 'l', 'l']
  else if c = 't' then (input.drop 1).readWord ['r', 'u', 'e']
  else if c = 'f' then (input.drop 1).readWord ['a', 'l', 's', 'e']
  else if c = '-' then skipNumber (input.drop 1)
  else if isAsciiDigit c then skipNumber input
  else if c = '"' then skipTextFrom 0 (input.drop 1).rest (input.bytes + 1)
  else .error (input.ahead .expectedValue)

/-- Passes over what is left of a value inside the open brackets `stack`, the innermost first. Every
second step reads a character, which bounds the steps by the text. -/
def skipSteps : Nat → List Char → Due → Input → Except Fault Input
  | 0, _, _, input => .error (input.ahead .endInValue)
  | fuel + 1, stack, .value, input =>
    let input := input.skipSpace
    match input.rest with
    | [] => .error (input.ahead .endInValue)
    | c :: _ =>
      if c = '[' || c = '{' then skipSteps fuel (c :: stack) (.next false) (input.drop 1)
      else
        match skipScalar input c with
        | .error fault => .error fault
        | .ok input =>
          if stack.isEmpty then .ok input else skipSteps fuel stack (.next true) input
  | _ + 1, [], .next _, input => .ok input
  | fuel + 1, bracket :: outer, .next behindItem, input =>
    let input := input.skipSpace
    let isList := bracket == '['
    let descend (input : Input) : Except Fault Input :=
      match if isList then .ok input else skipKey input with
      | .error fault => .error fault
      | .ok input => skipSteps fuel (bracket :: outer) .value input
    match input.rest with
    | [] => .error (input.ahead (if isList then .endInList else .endInObject))
    | c :: _ =>
      if behindItem && c == ',' then descend (input.drop 1)
      else if c = (if isList then ']' else '}') then
        if outer.isEmpty then .ok (input.drop 1)
        else skipSteps fuel outer (.next true) (input.drop 1)
      else if behindItem then
        .error (input.ahead (if isList then .expectedListEnd else .expectedObjectEnd))
      else descend input

/-- Passes over one value, without a limit on its depth. -/
def skipValue (input : Input) : Except Fault Input :=
  skipSteps (2 * input.rest.length + 2) [] .value input

end TypedScript.Json
