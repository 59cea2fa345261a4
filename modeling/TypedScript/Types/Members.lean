/-
**Properties and methods of built-in types.** In the table, `T` stands for the element type of the
receiver.
-/

import TypedScript.Diagnostic
import TypedScript.Target.Helper
import TypedScript.Types.Normal

namespace TypedScript

/-- How a property is written in generated code. -/
inductive Emission where
  /-- As a property of the receiver. -/
  | member
  /-- As a call of a helper with the receiver as first argument. -/
  | helper (helper : Helper)
  deriving DecidableEq, Repr

/-- A member of a type. -/
structure Property where
  /-- The type of the property, or of the result of the method. -/
  type : Ty
  method : Bool
  params : List Ty
  /-- Whether any number of arguments is taken, the extra ones of the last parameter's type. -/
  variadic : Bool
  emission : Emission
  deriving DecidableEq, Repr

namespace Property

/-- The element type of the receiver. -/
def element : Ty := .simple "T"

/-- A member that is a value. -/
def field (type : Ty) : Property :=
  ⟨type, false, [], false, .member⟩

/-- A member that is called. -/
def ofMethod (type : Ty) (params : List Ty) (variadic : Bool) : Property :=
  ⟨type, true, params, variadic, .member⟩

/-- A method that is a call of a helper. -/
def ofHelper (type : Ty) (helper : Helper) : Property :=
  ⟨type, true, [], false, .helper helper⟩

end Property

open Property in
/-- What is known of a property of a type. -/
def property? (category name : String) : Option Property :=
  let int := Ty.simple "int"
  if category = "string" then
    if name = "length" then some (field .number)
    else if name = "slice" then some (ofMethod .string [int, int] true)
    else if name = "trim" then some (ofMethod .string [] false)
    else if name = "toNumber" then some (ofHelper .number .toNumber)
    else if name = "split" then some (ofMethod (.arrayOf .string) [.string] false)
    else none
  else if category = "number" then
    if name = "toString" then some (ofMethod .string [] false) else none
  else if category = "object" then
    if name = "keys" then some (ofHelper (.arrayOf .string) .keys)
    else if name = "values" then some (ofHelper (.arrayOf element) .values)
    else if name = "entries" then some (ofHelper (.arrayOf (.arrayOf .any)) .entries)
    else none
  else if category = "array" then
    if name = "length" then some (field .number)
    else if name = "slice" then some (ofMethod (.arrayOf element) [int, int] true)
    else if name = "join" then some (ofMethod .string [.string] false)
    else if name = "push" then some (ofMethod .void [element] true)
    else none
  else none

namespace Ty

mutual

/-- Puts a type in the place of `T`. -/
def substitute (element : Ty) : Ty → Ty
  | .named name params =>
    if name = "T" then element else .named name (substituteList element params)
  | .union members => .union (substituteList element members)

/-- Puts a type in the place of `T` in several types. -/
def substituteList (element : Ty) : List Ty → List Ty
  | [] => []
  | type :: rest => substitute element type :: substituteList element rest

end

end Ty

/-- A property of a given receiver. -/
structure Member where
  type : Ty
  method : Bool
  params : List Ty
  variadic : Bool
  emission : Emission
  /-- Whether nothing is known of the property but its type. -/
  loose : Bool
  deriving DecidableEq, Repr

/-- A property of which only the type is known. -/
def Member.ofType (type : Ty) : Member :=
  ⟨type, false, [], false, .member, true⟩

/-- A property of the table for a receiver with the given element type. A method that is not called
is a function value. -/
def Property.resolve (info : Property) (element : Ty) (called : Bool) : Member where
  type := if info.method && !called then .func else Ty.substitute element info.type
  method := info.method
  params := Ty.substituteList element info.params
  variadic := info.variadic
  emission := info.emission
  loose := false

/-- The property of a receiver with the given name, or the method if it is called. An object has a
property of every name, so its methods are found only when called. -/
def Ty.member (receiver : Ty) (name : String) (called : Bool) : Except Cause Member :=
  let category := receiver.category
  let element := receiver.element?.getD .any
  if category = "any" then .ok (.ofType .any)
  else
    match if category != "object" || called then property? category name else none with
    | some info =>
      if called && !info.method then .error (.notCallable name)
      else .ok (info.resolve element called)
    | none =>
      if category = "object" then .ok (.ofType element)
      else .error (.unknownProperty name receiver.text)

end TypedScript
