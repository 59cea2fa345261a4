/-
**Reading types.** The written form of a type: names with parameters in angle brackets, and
alternatives separated by bars, with blanks anywhere between them.
-/

import TypedScript.Text.Alphabet
import TypedScript.Text.Blank
import TypedScript.Types.Basic

namespace TypedScript.Ty

open Text

/-- One member is itself, several are a union. -/
def ofMembers : List Ty → Ty
  | [member] => member
  | members => .union members

mutual

/-- Reads alternatives separated by bars. Each reading takes characters, so the number of characters
is enough `fuel`. -/
def readMembers : Nat → List Char → Option (List Ty × List Char)
  | 0, _ => none
  | fuel + 1, text =>
    match readNamed fuel text with
    | none => none
    | some (member, rest) =>
      match trimStart rest with
      | '|' :: more =>
        match readMembers fuel more with
        | none => none
        | some (members, rest) => some (member :: members, rest)
      | rest => some ([member], rest)

/-- A named type with its parameters. -/
def readNamed : Nat → List Char → Option (Ty × List Char)
  | 0, _ => none
  | fuel + 1, text =>
    let text := trimStart text
    let name := text.takeWhile isWordChar
    match name with
    | [] => none
    | first :: _ =>
      if isAsciiDigit first then none
      else
        match trimStart (text.dropWhile isWordChar) with
        | '<' :: more =>
          match readParams fuel more with
          | none => none
          | some (params, rest) => some (.named (String.ofList name) params, rest)
        | rest => some (.named (String.ofList name) [], rest)

/-- Reads parameters separated by commas, up to and including the closing bracket. -/
def readParams : Nat → List Char → Option (List Ty × List Char)
  | 0, _ => none
  | fuel + 1, text =>
    match readMembers fuel text with
    | none => none
    | some (members, rest) =>
      match trimStart rest with
      | ',' :: more =>
        match readParams fuel more with
        | none => none
        | some (params, rest) => some (ofMembers members :: params, rest)
      | '>' :: rest => some ([ofMembers members], rest)
      | _ => none

end

/-- The type a whole text denotes. -/
def read? (text : List Char) : Option Ty :=
  match readMembers (3 * text.length + 3) text with
  | none => none
  | some (members, rest) => if (trimStart rest).isEmpty then some (ofMembers members) else none

end TypedScript.Ty
