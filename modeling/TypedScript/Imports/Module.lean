/-
**Modules.** An import file is a header, a line `---`, and code. The header names the module and
says which functions and properties the code exports.
-/

import TypedScript.Imports.Header
import TypedScript.Syntax.Blocks

namespace TypedScript

open Text

/-- A function that a module exports. -/
structure ModuleFunction where
  name : String
  params : List Ty
  returns : Ty
  async : Bool
  variadic : Bool
  deriving DecidableEq, Repr

/-- A property that a module exports. Without a value it is a name defined by the code. -/
structure ModuleProperty where
  name : String
  type : Ty
  value : Option Json
  deriving Repr

/-- A module, bound to its name in the generated program. -/
structure Module where
  /-- The path as written in the import statement. -/
  path : String
  name : String
  code : String
  /-- The expression that the header gives in place of the exports. -/
  customReturn : Option String
  functions : List ModuleFunction
  properties : List ModuleProperty
  deriving Repr

namespace Module

/-- The first function of a name. -/
def function? (module : Module) (name : String) : Option ModuleFunction :=
  module.functions.find? fun function => function.name == name

/-- The first property of a name. -/
def property? (module : Module) (name : String) : Option ModuleProperty :=
  module.properties.find? fun property => property.name == name

/-- A property in the exported object. -/
def exportedProperty (property : ModuleProperty) : String :=
  match property.value with
  | some value => property.name ++ ": " ++ value.write
  | none => property.name

/-- The expression whose value is the module: an object of all functions and properties, unless the
header gives another one. -/
def exports (module : Module) : String :=
  match module.customReturn with
  | some code => code
  | none =>
    let entries := module.functions.map (·.name) ++ module.properties.map exportedProperty
    if entries.isEmpty then "\x7b\x7d"
    else "\x7b " ++ String.intercalate ", " entries ++ " \x7d"

/-! ### Reading import files -/

/-- Whether a line is the one between header and code. -/
def isSeparator (line : List Char) : Bool :=
  withoutBreak line == "---".toList

/-- Cuts lines at the first separator. -/
def splitLines : List (List Char) → Option (List Char × List Char)
  | [] => none
  | line :: rest =>
    if isSeparator line then some ([], rest.flatten)
    else (splitLines rest).map fun (header, code) => (line ++ header, code)

end Module

/-- The header and the code of an import file. -/
def splitSections (text : List Char) : Option (List Char × List Char) :=
  Module.splitLines (lines text)

namespace Module

/-- Names in a header have to be identifiers. -/
def checkName (path field name : String) : Except Cause Unit :=
  if isIdentifier name.toList then .ok () else .error (.invalidImportName path field name)

/-- A type, written as a string. -/
def typeOf (path : String) (value : Json) : Except Cause Ty :=
  match value with
  | .text text =>
    match readType text.toList with
    | .ok type => .ok type
    | .error cause => .error (.invalidMetadata path cause.message)
  | other => .error (.invalidTypeValue path other.write)

/-- The types that several values denote. -/
def typesOf (path : String) : List Json → Except Cause (List Ty)
  | [] => .ok []
  | value :: rest => do
    let type ← typeOf path value
    let types ← typesOf path rest
    return type :: types

/-- A return type: one type, or a list of alternatives. -/
def returnTypeOf (path : String) (value : Json) : Except Cause Ty :=
  match value with
  | .array alternatives => do
    match ← typesOf path alternatives with
    | [] => return .any
    | [type] => return type
    | types => return .union types
  | other => typeOf path other

/-- A function of the header. -/
def functionOf (path : String) (entry : FunctionEntry) : Except Cause ModuleFunction := do
  let name := entry.name.getD ""
  checkName path "function name" name
  let params ← typesOf path (entry.params.getD [])
  let returns ←
    match entry.returns.join with
    | some value => returnTypeOf path value
    | none => .ok .any
  return ⟨name, params, returns, entry.async.getD false, entry.variadic.getD false⟩

/-- All functions, or the first cause. -/
def functionsOf (path : String) : List FunctionEntry → Except Cause (List ModuleFunction)
  | [] => .ok []
  | entry :: rest => do
    let function ← functionOf path entry
    let functions ← functionsOf path rest
    return function :: functions

/-- A property of the header. -/
def propertyOf (path : String) (entry : PropertyEntry) : Except Cause ModuleProperty := do
  let name := entry.name.getD ""
  checkName path "property name" name
  let type ←
    match entry.type.join with
    | some value => typeOf path value
    | none => .ok .any
  return ⟨name, type, entry.value.join⟩

/-- All properties, or the first cause. -/
def propertiesOf (path : String) : List PropertyEntry → Except Cause (List ModuleProperty)
  | [] => .ok []
  | entry :: rest => do
    let property ← propertyOf path entry
    let properties ← propertiesOf path rest
    return property :: properties

/-- Refuses an expression for the exports that is blank. -/
def checkCustomReturn (path : String) : Option String → Except Cause Unit
  | none => .ok ()
  | some code =>
    if (trim code.toList).isEmpty then .error (.invalidImportName path "customReturn" code)
    else .ok ()

/-- The module of a header and its code. -/
def ofHeader (path : String) (header : Header) (code : List Char) : Except Cause Module := do
  let name := header.module.getD ""
  let customReturn := header.customReturn.join
  checkName path "module name" name
  checkCustomReturn path customReturn
  let functions ← functionsOf path (header.functions.getD [])
  let properties ← propertiesOf path (header.properties.getD [])
  return ⟨path, name, String.ofList code, customReturn, functions, properties⟩

/-- The module of an import file. -/
def parse (path : String) (text : List Char) : Except Cause Module :=
  match splitSections text with
  | none => .error (.missingSeparator path)
  | some (header, code) =>
    match Header.parse header with
    | .error fault => .error (.invalidMetadata path (fault.message header))
    | .ok header => ofHeader path header code

end Module

end TypedScript
