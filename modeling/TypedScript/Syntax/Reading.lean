/-
**Readings.** Reading a piece of script text gives a value or stops at a diagnostic. Blocks inside
the text are read to their end whatever is wrong in them, so their diagnostics are collected beside
the outcome.

Text inside brackets is read by an `Inner`, a pair of readers for the text that was cut out. An
inner reader may also be exhausted, if brackets are nested deeper than it was built for.
-/

import TypedScript.Diagnostic
import TypedScript.Syntax.Tree

namespace TypedScript

/-- Why a reading has no value. -/
inductive Stop where
  | failed (diagnostic : Diagnostic)
  /-- Nested deeper than the reader was built for. -/
  | exhausted
  deriving DecidableEq, Repr

/-- The diagnostics of the blocks inside a text, and the value of the text. -/
structure Reading (α : Type) where
  collected : List Diagnostic
  outcome : Except Stop α

namespace Reading

/-- A value without diagnostics. -/
def done {α : Type} (value : α) : Reading α :=
  ⟨[], .ok value⟩

/-- A reading that continues with the value of another one. -/
def andThen {α β : Type} (reading : Reading α) (next : α → Reading β) : Reading β :=
  match reading.outcome with
  | .error stop => ⟨reading.collected, .error stop⟩
  | .ok value =>
    let following := next value
    ⟨reading.collected ++ following.collected, following.outcome⟩

instance : Monad Reading where
  pure := done
  bind := andThen

/-- Stops with a cause. -/
def fail {α : Type} (cause : Cause) (line : Nat) : Reading α :=
  ⟨[], .error (.failed ⟨cause, line⟩)⟩

/-- Stops because text is nested too deep. -/
def exhausted {α : Type} : Reading α :=
  ⟨[], .error .exhausted⟩

/-- Adds diagnostics and goes on. -/
def collect (diagnostics : List Diagnostic) : Reading Unit :=
  ⟨diagnostics, .ok ()⟩

/-- A value that has to be there. -/
def require {α : Type} (value? : Option α) (cause : Cause) (line : Nat) : Reading α :=
  match value? with
  | some value => done value
  | none => fail cause line

/-- The outcome as a value: a diagnostic stops no longer, it is collected. -/
def recover {α : Type} (reading : Reading α) : Reading (Option α) :=
  match reading.outcome with
  | .ok value => ⟨reading.collected, .ok (some value)⟩
  | .error (.failed diagnostic) => ⟨reading.collected ++ [diagnostic], .ok none⟩
  | .error .exhausted => ⟨reading.collected, .error .exhausted⟩

end Reading

/-- Readers for the text inside brackets, given with the line it is counted from. -/
structure Inner where
  expression : List Char → Nat → Reading (List Token)
  body : List Char → Nat → Reading (List Stmt)

end TypedScript
