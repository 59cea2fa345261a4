/-
**Escapes in string literals.** Between the quotes of a literal, `\n`, `\t`, `\r`, `\"` and `\\`
stand for one character. `\u` takes four hexadecimal digits or one to six of them in braces, except
that braces do not hold exactly two. Any other backslash stands for itself.
-/

import TypedScript.Text.Alphabet
import TypedScript.Text.Balanced

namespace TypedScript

open Text

/-- The number that hexadecimal digits denote; none if a character is no such digit. -/
def hexNumber? (digits : List Char) : Option Nat :=
  digits.foldlM (fun total c => (hexDigit? c).map fun digit => total * 16 + digit) 0

/-- The character with a code point, surrogates and larger numbers excluded. -/
def scalar? (code : Nat) : Option Char :=
  if code < 0xD800 || (0xDFFF < code && code < 0x110000) then some (Char.ofNat code) else none

/-- The character that the text behind `\u` denotes, and how many characters it takes. -/
def unicodeEscape? (text : List Char) : Option (Char × Nat) :=
  match text with
  | '{' :: rest =>
    let digits := rest.takeWhile fun c => c != '}'
    if digits.length = rest.length then none
    else if digits.isEmpty || 6 < digits.length || digits.length = 2 then none
    else
      match (hexNumber? digits).bind scalar? with
      | some c => some (c, digits.length + 2)
      | none => none
  | _ =>
    let digits := text.take 4
    if digits.length ≠ 4 then none
    else
      match (hexNumber? digits).bind scalar? with
      | some c => some (c, 4)
      | none => none

/-- The character that a backslash and one letter denote. -/
def plainEscape? (c : Char) : Option Char :=
  if c = 'n' then some '\n'
  else if c = 't' then some '\t'
  else if c = 'r' then some '\r'
  else if c = '"' then some '"'
  else if c = '\\' then some '\\'
  else none

/-- The text that a literal denotes, up to the quote that closes it, and the text behind that quote.
There is no result if the literal never ends. The first `skip` characters belong to an escape that was
decoded. -/
def decodeFrom : Nat → List Char → Option (List Char × List Char)
  | _, [] => none
  | skip + 1, _ :: rest => decodeFrom skip rest
  | 0, '\\' :: c :: rest =>
    match plainEscape? c with
    | some denoted => consCut denoted (decodeFrom 1 (c :: rest))
    | none =>
      match if c = 'u' then unicodeEscape? rest else none with
      | some (denoted, length) => consCut denoted (decodeFrom (length + 1) (c :: rest))
      | none => consCut '\\' (consCut c (decodeFrom 1 (c :: rest)))
  | 0, c :: rest => if c = '"' then some ([], rest) else consCut c (decodeFrom 0 rest)

end TypedScript
