/-
**Headers of import files.** The header of an import file is a JSON record that describes a module.
A record is an object, where fields that are not known are passed over, or a list of its fields in
their order.
-/

import TypedScript.Json.Reader
import TypedScript.Text.Visible

namespace TypedScript

open Json

/-! ### Values of a given kind -/

/-- The fault of a value that is of another kind than the one wanted. Values other than lists and
objects are read before they are refused. -/
def kindFault (wanted : String) (input : Input) : Fault :=
  let refuse (found : String) : Except Fault Input → Fault
    | .error fault => fault
    | .ok input => input.here (.wrongKind found wanted)
  let number : Except Fault (Json × Input) → Fault
    | .error fault => fault
    | .ok (.int value, input) =>
      input.here (.wrongKind ("integer `" ++ Json.writeInt value ++ "`") wanted)
    | .ok (value, input) =>
      input.here (.wrongKind ("floating point `" ++ value.write ++ "`") wanted)
  match input.rest with
  | [] => input.ahead .expectedValue
  | c :: _ =>
    if c = 'n' then refuse "null" ((input.drop 1).readWord ['u', 'l', 'l'])
    else if c = 't' then refuse "boolean `true`" ((input.drop 1).readWord ['r', 'u', 'e'])
    else if c = 'f' then refuse "boolean `false`" ((input.drop 1).readWord ['a', 'l', 's', 'e'])
    else if c = '-' then number (readNumber true (input.drop 1))
    else if Text.isAsciiDigit c then number (readNumber false input)
    else if c = '"' then
      match readText (input.drop 1) with
      | .error fault => fault
      | .ok (content, input) =>
        input.here (.wrongKind ("string " ++ String.ofList (Text.quoted content.toList)) wanted)
    else if c = '[' then input.here (.wrongKind "sequence" wanted)
    else if c = '{' then input.here (.wrongKind "map" wanted)
    else input.ahead .expectedValue

/-- A string. -/
def stringReader : Reader String := fun input =>
  let input := input.skipSpace
  match input.rest with
  | [] => .error (input.ahead .endInValue)
  | '"' :: _ => readText (input.drop 1)
  | _ :: _ => .error (kindFault "a string" input)

/-- Reads a truth value. -/
def boolReader : Reader Bool := fun input =>
  let input := input.skipSpace
  match input.rest with
  | [] => .error (input.ahead .endInValue)
  | 't' :: _ => do return (true, ← (input.drop 1).readWord ['r', 'u', 'e'])
  | 'f' :: _ => do return (false, ← (input.drop 1).readWord ['a', 'l', 's', 'e'])
  | _ :: _ => .error (kindFault "a boolean" input)

/-- A value or `null`. -/
def nullableReader {α : Type} (value : Reader α) : Reader (Option α) := fun input =>
  let input := input.skipSpace
  match input.rest with
  | 'n' :: _ => do return (none, ← (input.drop 1).readWord ['u', 'l', 'l'])
  | _ => do
    let (content, input) ← value input
    return (some content, input)

/-- A list of values. -/
def listReader {α : Type} (item : Nat → Reader α) (room : Nat) : Reader (List α) := fun input =>
  let input := input.skipSpace
  match input.rest with
  | [] => .error (input.ahead .endInValue)
  | '[' :: _ =>
    match room with
    | 0 => .error (input.ahead .tooDeep)
    | inner + 1 => do
      let input := input.drop 1
      let (items, input) ← readItems (item inner) (input.rest.length + 1) true input
      return (items, ← endList input)
  | _ :: _ => .error (kindFault "a sequence" input)

/-! ### Records -/

/-- One field of a record, and how it is read into a draft of the record. -/
structure RecordField (σ : Type) where
  name : String
  /-- Whether the draft has the field already. -/
  isSet : σ → Bool
  /-- Reads the value into the draft; at most `room` nested brackets may be open. -/
  read : (room : Nat) → σ → Reader σ
  required : Bool
  /-- Whether the field may be missing at the end of a record that is a list. -/
  omissible : Bool

/-- A record with named fields, as headers are made of. -/
structure RecordShape (σ : Type) where
  /-- What messages call the record. -/
  name : String
  fields : List (RecordField σ)
  /-- The draft before any field is read. -/
  blank : σ

namespace RecordShape

variable {σ : Type}

/-- The input at which a fault of a whole object is reported: behind its brace, if that is next. -/
def objectEnd (input : Input) : Input :=
  let input := input.skipSpace
  if input.rest.head? = some '}' then input.drop 1 else input

/-- The fields of an object, each into the draft. -/
def readObject (shape : RecordShape σ) (room : Nat) : Nat → Bool → σ → Reader σ
  | 0, _, _, input => .error (input.ahead .endInObject)
  | fuel + 1, first, draft, input => do
    let (more, input) ← hasField first input
    if !more then return (draft, input)
    let (key, input) ← readText (input.drop 1)
    match shape.fields.find? fun field => field.name == key with
    | none =>
      let input ← skipValue (← readColon input)
      shape.readObject room fuel false draft input
    | some field =>
      if field.isSet draft then .error ((objectEnd input).here (.duplicateField key))
      else
        let (draft, input) ← field.read room draft (← readColon input)
        shape.readObject room fuel false draft input

/-- Reads the fields of a record that is a list; `position` is that of the first field. -/
def readList (shape : RecordShape σ) (room : Nat) : List (RecordField σ) → Nat → Bool → σ → Reader σ
  | [], _, _, draft, input => .ok (draft, input)
  | field :: rest, position, first, draft, input => do
    let (more, input) ← hasItem first input
    if more then
      let (draft, input) ← field.read room draft input
      shape.readList room rest (position + 1) false draft input
    else if field.omissible then shape.readList room rest (position + 1) first draft input
    else
      let wanted :=
        "struct " ++ shape.name ++ " with " ++ toString shape.fields.length ++ " elements"
      .error ((input.drop 1).here (.tooShort position wanted))

/-- The first field that is required and was not read. -/
def missing? (shape : RecordShape σ) (draft : σ) : Option String :=
  (shape.fields.find? fun field => field.required && !field.isSet draft).map RecordField.name

/-- Reads a record of a shape. -/
def reader (shape : RecordShape σ) (room : Nat) : Reader σ := fun input =>
  let input := input.skipSpace
  match input.rest with
  | [] => .error (input.ahead .endInValue)
  | '[' :: _ =>
    match room with
    | 0 => .error (input.ahead .tooDeep)
    | inner + 1 => do
      let (draft, input) ← shape.readList inner shape.fields 0 true shape.blank (input.drop 1)
      return (draft, ← endList input)
  | '{' :: _ =>
    match room with
    | 0 => .error (input.ahead .tooDeep)
    | inner + 1 => do
      let start := input.drop 1
      let (draft, input) ← shape.readObject inner (start.rest.length + 1) true shape.blank start
      match shape.missing? draft with
      | some field => .error ((objectEnd input).here (.missingField field))
      | none => return (draft, ← endObject input)
  | _ :: _ => .error (kindFault ("struct " ++ shape.name) input)

end RecordShape

/-- A field of the draft, given by how it is got and set. -/
def recordField {σ α : Type} (name : String) (get : σ → Option α) (set : σ → α → σ)
    (value : Nat → Reader α) (required omissible : Bool) : RecordField σ where
  name := name
  isSet draft := (get draft).isSome
  read room draft input := do
    let (content, input) ← value room input
    return (set draft content, input)
  required := required
  omissible := omissible

/-! ### The records of a header -/

/-- The description of a function; a field is `none` until it is read. -/
structure FunctionEntry where
  name : Option String := none
  params : Option (List Json) := none
  returns : Option (Option Json) := none
  async : Option Bool := none
  variadic : Option Bool := none

/-- The description of a property; a field is `none` until it is read. -/
structure PropertyEntry where
  name : Option String := none
  type : Option (Option Json) := none
  value : Option (Option Json) := none

/-- The description of a module; a field is `none` until it is read. -/
structure Header where
  module : Option String := none
  customReturn : Option (Option String) := none
  functions : Option (List FunctionEntry) := none
  properties : Option (List PropertyEntry) := none

/-- A string, at any depth. -/
def stringAt (_ : Nat) : Reader String := stringReader

/-- Reads a truth value at any depth. -/
def boolAt (_ : Nat) : Reader Bool := boolReader

/-- Any value, where `null` is none. -/
def nullableValue (room : Nat) : Reader (Option Json) := nullableReader (readValue room)

/-- The fields of a function. -/
def FunctionEntry.shape : RecordShape FunctionEntry where
  name := "RawFunction"
  blank := {}
  fields :=
    [recordField "name" (·.name) (fun entry name => { entry with name := some name })
       stringAt true false,
     recordField "params" (·.params) (fun entry params => { entry with params := some params })
       (listReader readValue) false true,
     recordField "returns" (·.returns) (fun entry type => { entry with returns := some type })
       nullableValue false false,
     recordField "async" (·.async) (fun entry async => { entry with async := some async })
       boolAt false true,
     recordField "variadic" (·.variadic)
       (fun entry variadic => { entry with variadic := some variadic }) boolAt false true]

/-- The fields of a property. -/
def PropertyEntry.shape : RecordShape PropertyEntry where
  name := "RawProperty"
  blank := {}
  fields :=
    [recordField "name" (·.name) (fun entry name => { entry with name := some name })
       stringAt true false,
     recordField "type" (·.type) (fun entry type => { entry with type := some type })
       nullableValue false false,
     recordField "value" (·.value) (fun entry value => { entry with value := some value })
       nullableValue false false]

/-- The fields of a header. -/
def Header.shape : RecordShape Header where
  name := "RawMetadata"
  blank := {}
  fields :=
    [recordField "module" (·.module) (fun header name => { header with module := some name })
       stringAt true false,
     recordField "customReturn" (·.customReturn)
       (fun header code => { header with customReturn := some code })
       (fun _ => nullableReader stringReader) false false,
     recordField "functions" (·.functions)
       (fun header functions => { header with functions := some functions })
       (listReader FunctionEntry.shape.reader) false true,
     recordField "properties" (·.properties)
       (fun header properties => { header with properties := some properties })
       (listReader PropertyEntry.shape.reader) false true]

/-- Reads the header of an import file. -/
def Header.parse (text : List Char) : Except Fault Header := do
  let (header, input) ← Header.shape.reader depthLimit (Input.start text)
  endText input
  return header

end TypedScript
