/-
**Names and patterns that are declared.** Variables, parameters and caught values are declared by a
name or by a pattern for a list or an object.
-/

import TypedScript.Target.Grammar.Inner

namespace TypedScript.Target

open Parse

variable (inner : Inner) (setting : Setting)

/-- Reads the value behind `=`, if there is one, and tells whether there is. -/
def initializer : Parse Bool := do
  if ← eat "=" then
    let _ ← inner.assignment setting.bracketed
    return true
  else return false

/-- A name or pattern with the value it has otherwise. -/
def element : Parse Unit := do
  let _ ← inner.pattern setting
  let _ ← initializer inner setting

/-- Reads a name or pattern behind `...`, which has no other value. Gives the line where it starts,
and whether it is a name. -/
def restElement : Parse (Nat × Bool) := do
  let start ← line
  next
  let valueStart ← line
  let named ← inner.pattern setting
  if ← initializer inner setting then report valueStart
  return (start, named)

/-- Notes a comma behind an element that comes last. -/
def lastElement (start : Nat) (closing : List String) : Parse Unit := do
  if ← atMark "," then
    let following := (← ahead 1).lexeme
    if closing.any fun close => following = .mark close then
      report (← line)
      next
    else report start

/-- Reads what stands behind `...` in a pattern. In an object it is a name. -/
def restBinding (onlyName : Bool) : Parse Nat := do
  let (start, named) ← restElement inner setting
  lastElement start ["]", "\x7d"]
  if onlyName && !named then report start
  return start

/-- Reads an item of a list pattern, which may be left out. -/
def listElement : Parse Unit := do
  if ← atMark "," then return
  element inner setting

/-- Reads a field of an object pattern. A field without a pattern of its own is named like its
value. -/
def fieldElement : Parse Unit := do
  let named :=
    match ← lexeme with
    | .word word => isName word
    | _ => false
  let _ ← key inner setting
  if named && !(← atMark ":") then
    let _ ← initializer inner setting
  else
    expect ":"
    element inner setting

/-- Reads a name or pattern, and tells whether it is a name. -/
def pattern : Parse Bool := do
  if ← eat "[" then
    elements "]" (listElement inner setting) (restBinding inner setting false) inner.steps true none
    expect "]"
    return false
  else if ← eat "\x7b" then
    elements "\x7d" (fieldElement inner setting) (restBinding inner setting true) inner.steps true
      none
    expect "\x7d"
    return false
  else
    bindingName setting
    return true

end TypedScript.Target
