/-
**Normal forms and assignability.** Aliases are resolved (`int`, `uint` and `float` are `number`,
`bool` is `boolean`, `null` is `any`), `array` and `object` without a parameter hold `any`, unions
are flat and do not repeat a member right behind itself, and a union of one member is that member.
-/

import TypedScript.Types.Basic

namespace TypedScript.Ty

/-- The name that a name stands for. -/
def resolveAlias (name : String) : String :=
  if name = "int" || name = "uint" || name = "float" then "number"
  else if name = "bool" then "boolean"
  else if name = "null" then "any"
  else name

/-- Whether a name is that of a type with elements. -/
def isContainer (name : String) : Bool :=
  name == "array" || name == "object"

/-- Drops every type that equals the one right before it. -/
def dropRepeats : List Ty → List Ty
  | [] => []
  | [type] => [type]
  | type :: next :: rest =>
    if type = next then dropRepeats (next :: rest) else type :: dropRepeats (next :: rest)

/-- The alternatives of a type: the members of a union, or the type itself. -/
def alternatives : Ty → List Ty
  | .named name params => [.named name params]
  | .union members => members

/-- The type with the given alternatives. -/
def ofAlternatives : List Ty → Ty
  | [type] => type
  | types => .union types

mutual

/-- The normal form. -/
def normalize : Ty → Ty
  | .named name params =>
    let name := resolveAlias name
    match normalizeList params with
    | [] => .named name (if isContainer name then [any] else [])
    | params => .named name params
  | .union members => ofAlternatives (dropRepeats ((normalizeList members).flatMap alternatives))

/-- The normal forms of several types. -/
def normalizeList : List Ty → List Ty
  | [] => []
  | type :: rest => normalize type :: normalizeList rest

end

/-- Whether a type stands for `any`. -/
def isAny (type : Ty) : Bool :=
  type.normalize.name? == some "any"

/-- Whether a type stands for `void`. -/
def isVoid (type : Ty) : Bool :=
  type.normalize.name? == some "void"

/-- The name that operators and properties are looked up by. -/
def category (type : Ty) : String :=
  type.normalize.name?.getD "any"

/-- The type of the elements of a container. -/
def element? (type : Ty) : Option Ty :=
  match type.normalize with
  | .named name params => if isContainer name then params.getLast? else none
  | .union _ => none

/-! ### Assignability -/

mutual

/-- Whether a test holds for a named type, or for some named type among alternatives. -/
def someNamed (test : String → List Ty → Bool) : Ty → Bool
  | .named name params => test name params
  | .union members => someNamedList test members

/-- Whether a test holds for some named type among several types. -/
def someNamedList (test : String → List Ty → Bool) : List Ty → Bool
  | [] => false
  | type :: rest => someNamed test type || someNamedList test rest

end

mutual

/-- Whether a value of the first type, in normal form, may be stored as the second one. Some
alternative of the first has to fit some alternative of the second. -/
def fits : Ty → Ty → Bool
  | .union members, other => someFits members other
  | .named name params, other =>
    other.someNamed fun wanted others =>
      wanted == "any" || name == "any" ||
        (name == wanted &&
          (others.isEmpty || (params.length == others.length && allFit params others)))

/-- Whether one of several types may be stored as another. -/
def someFits : List Ty → Ty → Bool
  | [], _ => false
  | type :: rest, other => fits type other || someFits rest other

/-- Whether parameters fit one by one, where `any` fits everything. -/
def allFit : List Ty → List Ty → Bool
  | type :: rest, other :: others =>
    (type.name? == some "any" || fits type other) && allFit rest others
  | _, _ => true

end

/-- Whether a value of one type may be stored where another is expected. -/
def assignableTo (type other : Ty) : Bool :=
  fits type.normalize other.normalize

end TypedScript.Ty
