/-
**Forms of expressions.** What an expression can be used as is known only behind it: a list or an
object is also a pattern if an assignment follows, and a name is a parameter if an arrow follows. So
a reader of expressions gives the form of what it has read.
-/

import TypedScript.Target.Parse

namespace TypedScript.Target

/-- What was read, with the line where it starts. -/
inductive Form where
  | name (line : Nat)
  /-- A member, that is `a.b` or `a[b]`. -/
  | member (line : Nat)
  /-- A list, and the line of a comma at its end. -/
  | list (line : Nat) (items : List Form) (comma? : Option Nat)
  | object (line : Nat) (fields : List Form) (comma? : Option Nat)
  /-- A left-out item of a list. -/
  | hole
  /-- An item behind `...`. -/
  | spread (line : Nat) (value : Form)
  /-- A field that is only a name, with or without a value behind `=`. -/
  | shorthand
  | assignment (line : Nat)
  /-- An expression in parentheses. -/
  | grouped (line : Nat) (inner : Form)
  | loading (line : Nat)
  | other (line : Nat)

namespace Form

open Parse

/-- The line where an expression starts. -/
def line : Form → Nat
  | .name line | .member line | .list line _ _ | .object line _ _ | .spread line _
  | .assignment line | .grouped line _ | .loading line | .other line => line
  | .hole | .shorthand => 0

/-- Whether an expression is a plain name. -/
def isName : Form → Bool
  | .name _ => true
  | _ => false

/-- Whether an expression is the loading of a module. -/
def isLoading : Form → Bool
  | .loading _ => true
  | _ => false

/-- An expression as a target that is no pattern. Parentheses around a name or a member are passed
over. -/
def asSimpleTarget : Form → Parse Unit
  | .name _ => return
  | .member _ => return
  | .grouped line (.list ..) => stop line
  | .grouped line (.object ..) => stop line
  | .grouped _ inner => inner.asSimpleTarget
  | form => stop form.line

mutual

/-- An expression as the target of an assignment. -/
def asTarget : Form → Parse Unit
  | .list _ items comma? => asTargets items comma?
  | .object _ fields comma? => asTargets fields comma?
  | form => form.asSimpleTarget

/-- The items of a list or the fields of an object as targets. What stands behind `...` comes last,
without a comma. -/
def asTargets : List Form → Option Nat → Parse Unit
  | [], _ => return
  | [.spread _ value], comma? => do
    value.asTarget
    if let some line := comma? then report line
  | .spread line _ :: _ :: _, _ => stop line
  | .hole :: rest, comma? => asTargets rest comma?
  | .shorthand :: rest, comma? => asTargets rest comma?
  | .assignment _ :: rest, comma? => asTargets rest comma?
  | form :: rest, comma? => do
    form.asTarget
    asTargets rest comma?

end

end Form

end TypedScript.Target
