/-
**Checks on types.** Known names, assignments, declarations, indexing and arguments.
-/

import TypedScript.Diagnostic
import TypedScript.Types.Normal

namespace TypedScript.Ty

/-- The names that annotations may use. -/
def knownNames : List String :=
  ["number", "int", "uint", "float", "string", "bool", "boolean", "array", "object", "func", "any",
   "void", "null"]

mutual

/-- The first type in an annotation whose name is not known. -/
def unknown? : Ty → Option Ty
  | .named name params =>
    if knownNames.contains name then unknownList? params else some (.named name params)
  | .union members => unknownList? members

/-- The first type in several annotations whose name is not known. -/
def unknownList? : List Ty → Option Ty
  | [] => none
  | type :: rest =>
    match unknown? type with
    | some found => some found
    | none => unknownList? rest

end

/-- Every name in an annotation has to be known. -/
def checkNames (type : Ty) : Except Cause Unit :=
  match type.unknown? with
  | none => .ok ()
  | some found => .error (.invalidType found.text)

/-- A value has to fit the place it is stored in. -/
def checkAssignment (expected received : Ty) : Except Cause Unit :=
  if received.assignableTo expected then .ok ()
  else .error (.typeMismatch expected.text received.text)

/-- The type recorded for a declared variable. An array or object of `any` takes the type of its
value, if that is the same container of something known; any other annotation stays as written. -/
def declared (stated value : Ty) : Ty :=
  let normal := stated.normalize
  let value := value.normalize
  match normal.element?, value.element? with
  | some element, some inner =>
    if element.isAny && normal.name? == value.name? && !inner.isAny then value else stated
  | _, _ => stated

/-- The type of an element and of its index. -/
def indexed (receiver : Ty) : Except Cause (Ty × Ty) :=
  let element := receiver.normalize.element?.getD any
  let category := receiver.category
  if category = "array" then .ok (element, number)
  else if category = "object" then .ok (element, string)
  else if category = "string" then .ok (string, number)
  else if category = "any" then .ok (any, any)
  else .error (.typeMismatch "array | object | string" receiver.text)

/-- The parameter that the argument at a position is checked against. -/
def parameterAt? (params : List Ty) (variadic : Bool) (position : Nat) : Option Ty :=
  match params[position]? with
  | some param => some param
  | none => if variadic then params.getLast? else none

/-- What is wrong with the types of arguments, the first of which has the given position. -/
def argumentTypes (params : List Ty) (variadic : Bool) : Nat → List Ty → List Cause
  | _, [] => []
  | position, argument :: rest =>
    let others := argumentTypes params variadic (position + 1) rest
    match parameterAt? params variadic position with
    | none => others
    | some expected =>
      if argument.assignableTo expected then others
      else .argumentType expected.text argument.text :: others

/-- All that is wrong with the arguments of a call. -/
def checkArguments (params : List Ty) (variadic : Bool) (arguments : List Ty) : List Cause :=
  let types := argumentTypes params variadic 0 arguments
  if !variadic && params.length != arguments.length then
    .argumentCount params.length arguments.length :: types
  else types

end TypedScript.Ty
