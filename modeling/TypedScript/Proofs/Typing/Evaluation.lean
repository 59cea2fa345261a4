/-
**Evaluating generated expressions.** What the operators of generated programs do with numbers,
strings and truth values. Operands are converted as the operator asks for; `&&` and `||` convert
nothing and give one of their operands.

Nothing is said here about how numbers are rounded and written and how strings are escaped: that is
left to a `Runtime`, and what is proved holds for all of them.
-/

import TypedScript.Proofs.Emitted.Reader

namespace TypedScript.Target

/-- The numbers, with what the operators need of them, and the strings of literals. -/
structure Runtime (N : Type) where
  decode : List Char → String
  ofLiteral : List Char → N
  /-- The number that a string is converted to. -/
  ofText : String → N
  toText : N → String
  zero : N
  one : N
  /-- Whether the number is converted to `true`. -/
  isTrue : N → Bool
  equal : N → N → Bool
  /-- Whether the first number is less, unless one of the two is undefined. -/
  less? : N → N → Option Bool
  negate : N → N
  add : N → N → N
  sub : N → N → N
  mul : N → N → N
  div : N → N → N
  rem : N → N → N

/-- What an expression evaluates to. -/
inductive Primitive (N : Type) where
  | number (value : N)
  | text (value : String)
  | bool (value : Bool)

namespace Primitive

variable {N : Type} (runtime : Runtime N)

/-- What `typeof` says about the value. -/
def category : Primitive N → String
  | .number _ => "number"
  | .text _ => "string"
  | .bool _ => "boolean"

/-! ### Conversions -/

/-- Converts to a truth value. Only the empty string is `false`. -/
def isTrue : Primitive N → Bool
  | .number value => runtime.isTrue value
  | .text value => value != ""
  | .bool value => value

def toNumber : Primitive N → N
  | .number value => value
  | .text value => runtime.ofText value
  | .bool value => if value then runtime.one else runtime.zero

def toText : Primitive N → String
  | .number value => runtime.toText value
  | .text value => value
  | .bool value => if value then "true" else "false"

/-! ### Operators -/

/-- The units by which strings are compared, two for a character outside of the first plane. -/
def codeUnits (c : Char) : List Nat :=
  if c.toNat < 0x10000 then [c.toNat]
  else [0xD800 + (c.toNat - 0x10000) / 0x400, 0xDC00 + (c.toNat - 0x10000) % 0x400]

/-- Whether the first value is less. Only two strings are compared as strings. -/
def less? : Primitive N → Primitive N → Option Bool
  | .text left, .text right =>
    some (left.toList.flatMap codeUnits < right.toList.flatMap codeUnits)
  | left, right => runtime.less? (left.toNumber runtime) (right.toNumber runtime)

/-- Whether two values are the same. Values of different categories never are. -/
def same : Primitive N → Primitive N → Bool
  | .number left, .number right => runtime.equal left right
  | .text left, .text right => left == right
  | .bool left, .bool right => left == right
  | _, _ => false

/-- Adds numbers. If one of the values is a string, both are joined as strings. -/
def add : Primitive N → Primitive N → Primitive N
  | .text left, right => .text (left ++ right.toText runtime)
  | left, .text right => .text (left.toText runtime ++ right)
  | left, right => .number (runtime.add (left.toNumber runtime) (right.toNumber runtime))

/-- An operator in front of its operand. -/
def unary? (op : String) (operand : Primitive N) : Option (Primitive N) :=
  if op = "!" then some (.bool !operand.isTrue runtime)
  else if op = "-" then some (.number (runtime.negate (operand.toNumber runtime)))
  else none

/-- An operator between two operands, both of which are evaluated. -/
def binary? (op : String) (left right : Primitive N) : Option (Primitive N) :=
  let numeric (combine : N → N → N) : Option (Primitive N) :=
    some (.number (combine (left.toNumber runtime) (right.toNumber runtime)))
  if op = "+" then some (add runtime left right)
  else if op = "-" then numeric runtime.sub
  else if op = "*" then numeric runtime.mul
  else if op = "/" then numeric runtime.div
  else if op = "%" then numeric runtime.rem
  else if op = "===" then some (.bool (same runtime left right))
  else if op = "!==" then some (.bool !same runtime left right)
  else if op = "<" then some (.bool (less? runtime left right == some true))
  else if op = ">" then some (.bool (less? runtime right left == some true))
  else if op = "<=" then some (.bool (less? runtime right left == some false))
  else if op = ">=" then some (.bool (less? runtime left right == some false))
  else none

end Primitive

/-! ### Expressions -/

variable {N : Type}

def literalValue (runtime : Runtime N) : List Char → Primitive N
  | '"' :: rest => .text (runtime.decode rest)
  | text => .number (runtime.ofLiteral text)

/-- The value of an expression that has only literals and operators. The right side of `&&` and `||`
is evaluated only if it is what they give. -/
def Tree.eval? (runtime : Runtime N) : Tree → Option (Primitive N)
  | .literal text => some (literalValue runtime text)
  | .word name =>
    if name = "true" then some (.bool true)
    else if name = "false" then some (.bool false)
    else none
  | .unary op operand => do
    Primitive.unary? runtime op (← operand.eval? runtime)
  | .binary op left right => do
    let first ← left.eval? runtime
    if op = "&&" then
      if first.isTrue runtime then right.eval? runtime else some first
    else if op = "||" then
      if first.isTrue runtime then some first else right.eval? runtime
    else Primitive.binary? runtime op first (← right.eval? runtime)
  | _ => none

end TypedScript.Target
