/-
**Types.** A type is a name with parameters, or a union of alternatives. Types are kept as written:
`int` stays apart from `number` because stored integers are truncated.
-/

namespace TypedScript

/-- A type annotation, also used as the static type of an expression. -/
inductive Ty where
  /-- A name with its parameters. -/
  | named (name : String) (params : List Ty)
  /-- Alternatives, in the order they are written. -/
  | union (members : List Ty)
  deriving Repr

namespace Ty

/-! ### Equality -/

mutual

/-- Equality of types can be decided. -/
def decEq : (a b : Ty) → Decidable (a = b)
  | .named name params, .named other others =>
    if sameName : name = other then
      match decEqList params others with
      | .isTrue sameParams => .isTrue (by rw [sameName, sameParams])
      | .isFalse different => .isFalse fun same => different (by injection same)
    else .isFalse fun same => sameName (by injection same)
  | .union members, .union others =>
    match decEqList members others with
    | .isTrue same => .isTrue (by rw [same])
    | .isFalse different => .isFalse fun same => different (by injection same)
  | .named _ _, .union _ => .isFalse fun same => by cases same
  | .union _, .named _ _ => .isFalse fun same => by cases same

/-- Equality of lists of types can be decided. -/
def decEqList : (as bs : List Ty) → Decidable (as = bs)
  | [], [] => .isTrue rfl
  | [], _ :: _ => .isFalse fun same => by cases same
  | _ :: _, [] => .isFalse fun same => by cases same
  | a :: as, b :: bs =>
    match decEq a b, decEqList as bs with
    | .isTrue sameHead, .isTrue sameTail => .isTrue (by rw [sameHead, sameTail])
    | .isFalse different, _ => .isFalse fun same => different (by injection same)
    | _, .isFalse different => .isFalse fun same => different (by injection same)

end

instance : DecidableEq Ty := decEq

/-! ### Common types -/

/-- A type without parameters. -/
def simple (name : String) : Ty :=
  .named name []

/-- The type of what is not known. -/
def any : Ty := simple "any"
/-- The type of no value. -/
def void : Ty := simple "void"
/-- The type of numbers. -/
def number : Ty := simple "number"
/-- The type of strings. -/
def string : Ty := simple "string"
/-- The type of truth values. -/
def boolean : Ty := simple "boolean"
/-- The type of functions. -/
def func : Ty := simple "func"

/-- A list of elements of one type. -/
def arrayOf (element : Ty) : Ty :=
  .named "array" [element]

/-- A dictionary with values of one type. -/
def objectOf (element : Ty) : Ty :=
  .named "object" [element]

/-- The name as written; a union has none. -/
def name? : Ty → Option String
  | .named name _ => some name
  | .union _ => none

/-- Whether a type is that of integers, as it is written. -/
def isInt (type : Ty) : Bool :=
  type.name? == some "int"

/-- Whether a type is that of unsigned integers, as it is written. -/
def isUint (type : Ty) : Bool :=
  type.name? == some "uint"

/-- Whether the type is literally `null`, which nothing can be declared as. -/
def isNull (type : Ty) : Bool :=
  type.name? == some "null"

/-! ### Written form -/

mutual

/-- How a type is written, `name`, `name<a, b>` or `a | b`. -/
def text : Ty → String
  | .named name [] => name
  | .named name (param :: params) => name ++ "<" ++ textList ", " (param :: params) ++ ">"
  | .union members => textList " | " members

/-- How several types are written with a separator between them. -/
def textList (separator : String) : List Ty → String
  | [] => ""
  | [type] => text type
  | type :: rest => text type ++ separator ++ textList separator rest

end

end Ty

end TypedScript
