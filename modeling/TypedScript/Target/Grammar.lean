/-
**Checking whole programs.** The readers of parts are given to each other here, up to a depth that no
text of a given length exceeds. Import files bring code of their own, and names that are fine in
scripts may be reserved in generated programs, so a generated program is read again.
-/

import TypedScript.Target.Grammar.Statements

namespace TypedScript.Target

open Parse

/-- Readers of parts up to a given depth. -/
def Inner.upTo (steps : Nat) : Nat → Inner
  | 0 => ⟨steps, fun _ => unexpected, fun _ => unexpected, fun _ => unexpected, fun _ => unexpected,
      fun _ => unexpected, fun _ _ => unexpected⟩
  | depth + 1 =>
    ⟨steps,
     fun setting => Target.assignment (Inner.upTo steps depth) setting,
     fun setting => Target.unary (Inner.upTo steps depth) setting,
     fun setting => Target.leftSide (Inner.upTo steps depth) setting,
     fun setting => Target.memberOperand (Inner.upTo steps depth) setting,
     fun setting => Target.pattern (Inner.upTo steps depth) setting,
     fun setting placement => Target.statement (Inner.upTo steps depth) setting placement⟩

/-- Readers of the parts of a text. No list in it has more items than it has characters, and each
token is the start of at most three parts in each other. -/
def Inner.within (text : List Char) : Inner :=
  Inner.upTo (text.length + 2) (3 * (text.length + 2))

/-- A whole program. -/
def program (inner : Inner) : Parse Unit :=
  repeated (do return (← lexeme) = .ending) (inner.statement .outermost .body) inner.steps

/-- The line of the fault in a program that counts. -/
def faultLine? (text : List Char) : Option Nat :=
  match program (Inner.within text) (Place.ofProgram text) with
  | .error line => some line
  | .ok (_, place) => place.fault?

end TypedScript.Target
