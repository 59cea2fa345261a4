/-
**Finding an assignment.** A statement is cut at its first assignment operator outside of brackets
and string literals. Comparisons are no assignments, and neither is the arrow of a lambda.
-/

import TypedScript.Operator

namespace TypedScript

/-- The change of depth that a character of code makes. -/
def bracketChange (c : Char) : Int :=
  if c = '(' || c = '[' || c = '{' then 1
  else if c = ')' || c = ']' || c = '}' then -1
  else 0

/-- A cut with one more character in front. -/
def consSplit (c : Char) (split : Option (List Char × Operator × List Char)) :
    Option (List Char × Operator × List Char) :=
  split.map fun (left, op, right) => (c :: left, op, right)

/-- Whether the arrow of a lambda comes next. -/
def startsWithArrow : List Char → Bool
  | '=' :: '>' :: _ => true
  | _ => false

/-- Looks for the operator from a depth on, inside of a string literal or not. The first `skip`
characters are passed: they belong to an operator, or stand behind a backslash in a literal. -/
def assignmentFrom : Nat → Bool → Int → List Char → Option (List Char × Operator × List Char)
  | _, _, _, [] => none
  | skip + 1, inString, depth, c :: rest => consSplit c (assignmentFrom skip inString depth rest)
  | 0, true, depth, c :: rest =>
    if c = '\\' then consSplit c (assignmentFrom 1 true depth rest)
    else consSplit c (assignmentFrom 0 (c != '"') depth rest)
  | 0, false, depth, c :: rest =>
    if c = '"' then consSplit c (assignmentFrom 0 true depth rest)
    else if bracketChange c ≠ 0 then
      consSplit c (assignmentFrom 0 false (depth + bracketChange c) rest)
    else
      match if depth = 0 then Operator.longestAt? (c :: rest) else none with
      | none => consSplit c (assignmentFrom 0 false depth rest)
      | some op =>
        if op.isAssignment && !startsWithArrow (c :: rest) then
          some ([], op, rest.drop (op.length - 1))
        else consSplit c (assignmentFrom (op.length - 1) false depth rest)

/-- The text before the operator, the operator, and the text behind it. -/
def splitAssignment (text : List Char) : Option (List Char × Operator × List Char) :=
  assignmentFrom 0 false 0 text

end TypedScript
